/-
Values that are written into the literals of a pattern come back when
the text is matched (`Pattern.report_written`).

How a value is written goes by the kind of its placeholder
(`Value.WrittenAs`), and which values are asked for by the type of its
element (`Value.Belongs`). Three steps are undone, each by itself:

- cutting gives back the pieces that were put between the literals
  (`pieces_interleave`);
- reading a piece gives back the value, but a decimal that was written
  as an integer comes back as one (`exists_reading`);
- fitting leaves every value alone that belongs to the type, whichever
  way integers are narrowed, and makes that integer a decimal again.

No piece is dropped on the way, so the policy does not matter.
-/
import Unformat.Proofs.Cut.Assembled
import Unformat.Proofs.Match.Reading
import Unformat.Proofs.Number.DecimalText
import Unformat.Proofs.Shape.Narrowing

namespace Unformat

-- ============================================== statement vocabulary

/-- The values of a type that a placeholder of some kind can stand for:
a text without lone halves, of one character where the type or the kind
says so; an integer in the range of the type; a decimal that can be
read, or one that is a 64-bit integer if the kind reads integers. None
is of a floating-point type. -/
def Value.Belongs (kind : Kind) (target : ElementType) (v : Value) : Prop :=
  match target, v with
  | .str, .str t => ∃ cs, t = Text.ofChars cs ∧ (kind = .char → cs.length = 1)
  | .char, .str t => ∃ c, t = Text.ofChars [c]
  | .bool, .bool _ => True
  | .int64, .int n => fitsInt64 n = true
  | .int32, .int n => -0x80000000 ≤ n ∧ n ≤ 0x7FFFFFFF
  | .uint32, .int n => 0 ≤ n ∧ n ≤ 0xFFFFFFFF
  | .decimal, .decimal d =>
      if kind = .int then ∃ n, fitsInt64 n = true ∧ d = Decimal.ofInt n
      else ∃ cs, Decimal.read? cs = some d
  | _, _ => False

/-- What is written of a value: a text as it is, a truth value by its
word, a number by its digits. The kind `hex` has the digits of the
number's two's complement, in either letter case. -/
def Value.WrittenAs (kind : Kind) (v : Value) (cs : List Char) : Prop :=
  match v with
  | .str t => t = Text.ofChars cs
  | .bool true => cs = "true".toList
  | .bool false => cs = "false".toList
  | .int n =>
      if kind = .hex then
        cs.map hexDigit? = (Nat.toDigits 16 (n % 0x10000000000000000).toNat).map hexDigit?
      else cs = writeInteger n
  | .decimal d => cs = d.write
  | .float _ => False

-- ============================================================= reading

variable {kind : Kind} {target : ElementType} {cs : List Char}

/-- A text reads back if the kind does not ask for another length. -/
theorem read?_ofChars (hsuits : kind.suits target = true) (htarget : target = .str ∨ target = .char)
    (hone : kind = .char → cs.length = 1) (mode : HexReading) :
    kind.read? mode (Text.ofChars cs) = some (.str (Text.ofChars cs)) := by
  cases kind with
  | string => rfl
  | char => simp [Kind.read?, readChar?, hone rfl]
  | _ =>
      rcases htarget with rfl | rfl
      · cases hsuits
      · cases hsuits

/-- A word reads back. -/
theorem readBool?_of_writtenAs {b : Bool} (h : (Value.bool b).WrittenAs kind cs) :
    readBool? cs = some b := by
  cases b with
  | true =>
      obtain rfl : cs = "true".toList := h
      decide
  | false =>
      obtain rfl : cs = "false".toList := h
      decide

/-- Two kinds read integers for the integer types. -/
theorem Kind.eq_int_or_hex_of_suits (h : kind.suits target = true)
    (htarget : target = .int64 ∨ target = .int32 ∨ target = .uint32) :
    kind = .int ∨ kind = .hex := by
  cases kind with
  | int => exact .inl rfl
  | hex => exact .inr rfl
  | _ => rcases htarget with rfl | rfl | rfl <;> cases h

/-- Both ways to write integers read back. -/
theorem read?_of_writtenAs_int {n : Int} (hkind : kind = .int ∨ kind = .hex)
    (hn : fitsInt64 n = true) (h : (Value.int n).WrittenAs kind cs) :
    kind.read? .base16 (Text.ofChars cs) = some (.int n) := by
  rcases hkind with rfl | rfl
  · obtain rfl : cs = writeInteger n := h
    simp [Kind.read?, readInt64?_writeInteger hn]
  · have hword : (n % 0x10000000000000000).toNat < 0x10000000000000000 := by omega
    have hread := readWord64?_of_digits hword h
    simp [Kind.read?, readHex?, hread, ofWord64_emod hn]

-- ============================================================= fitting

/-- What is written of a value is read as something that fits to the
value. -/
theorem exists_reading {v : Value} (hsuits : kind.suits target = true)
    (hbelongs : v.Belongs kind target) (hwritten : v.WrittenAs kind cs) :
    ∃ u, kind.read? .base16 (Text.ofChars cs) = some u ∧
      ∀ narrowing, u.fit target narrowing = .ok (some v) := by
  cases target with
  | str =>
      cases v with
      | str t =>
          obtain rfl : t = Text.ofChars cs := hwritten
          obtain ⟨cs', hcs, hone⟩ := hbelongs
          obtain rfl := Text.ofChars_injective hcs
          have hread := read?_ofChars hsuits (.inl rfl) hone .base16
          exact ⟨.str (Text.ofChars cs), hread, fun _ => rfl⟩
      | _ => exact hbelongs.elim
  | char =>
      cases v with
      | str t =>
          obtain rfl : t = Text.ofChars cs := hwritten
          obtain ⟨c, hc⟩ := hbelongs
          obtain rfl := Text.ofChars_injective hc
          have hone : kind = .char → [c].length = 1 := fun _ => rfl
          have hread := read?_ofChars hsuits (.inr rfl) hone .base16
          exact ⟨.str (Text.ofChars [c]), hread, fun _ => rfl⟩
      | _ => exact hbelongs.elim
  | bool =>
      cases v with
      | bool b =>
          refine ⟨.bool b, ?_, fun _ => rfl⟩
          cases kind with
          | bool => simp [Kind.read?, readBool?_of_writtenAs hwritten]
          | _ => cases hsuits
      | _ => exact hbelongs.elim
  | int64 =>
      cases v with
      | int n =>
          have hkind := Kind.eq_int_or_hex_of_suits hsuits (.inl rfl)
          exact ⟨.int n, read?_of_writtenAs_int hkind hbelongs hwritten, fun _ => rfl⟩
      | _ => exact hbelongs.elim
  | int32 =>
      cases v with
      | int n =>
          have hkind := Kind.eq_int_or_hex_of_suits hsuits (.inr (.inl rfl))
          have hrange : -0x80000000 ≤ n ∧ n ≤ 0x7FFFFFFF := hbelongs
          have hn : fitsInt64 n = true := fitsInt64_iff.mpr (by omega)
          refine ⟨.int n, read?_of_writtenAs_int hkind hn hwritten, fun narrowing => ?_⟩
          have hwrap : wrapSigned32 n = n := wrapSigned32_eq_self_iff.mpr ⟨by omega, by omega⟩
          simp [Value.fit, hwrap, narrow_self]
      | _ => exact hbelongs.elim
  | uint32 =>
      cases v with
      | int n =>
          have hkind := Kind.eq_int_or_hex_of_suits hsuits (.inr (.inr rfl))
          have hrange : 0 ≤ n ∧ n ≤ 0xFFFFFFFF := hbelongs
          have hn : fitsInt64 n = true := fitsInt64_iff.mpr (by omega)
          refine ⟨.int n, read?_of_writtenAs_int hkind hn hwritten, fun narrowing => ?_⟩
          have hwrap : wrapUnsigned32 n = n := wrapUnsigned32_eq_self_iff.mpr ⟨by omega, by omega⟩
          simp [Value.fit, hwrap, narrow_self]
      | _ => exact hbelongs.elim
  | decimal =>
      cases v with
      | decimal d =>
          obtain rfl : cs = d.write := hwritten
          cases kind with
          | int =>
              -- it is written as the integer is, read as one, and a decimal again once fitted
              obtain ⟨n, hn, rfl⟩ : ∃ n, fitsInt64 n = true ∧ d = Decimal.ofInt n := hbelongs
              refine ⟨.int n, ?_, fun _ => rfl⟩
              exact read?_of_writtenAs_int (.inl rfl) hn (Decimal.write_ofInt n)
          | decimal =>
              obtain ⟨cs', hcs⟩ : ∃ cs, Decimal.read? cs = some d := hbelongs
              refine ⟨.decimal d, ?_, fun _ => rfl⟩
              simp [Kind.read?, Decimal.read?_write (Decimal.withinLimits_of_read? hcs)]
          | _ => cases hsuits
      | _ => exact hbelongs.elim
  | float => cases v <;> exact hbelongs.elim

-- ============================================================ matching

/-- The piece that is written of a value is read as the value. -/
theorem readPiece_of_writtenAs {v : Value} (policy : Policy) (narrowing : Narrowing) (index : Nat)
    (hsuits : kind.suits target = true) (hbelongs : v.Belongs kind target)
    (hwritten : v.WrittenAs kind cs) :
    readPiece ⟨policy, .base16, narrowing⟩ index cs kind target = .ok (.ok v) := by
  obtain ⟨u, hread, hfit⟩ := exists_reading hsuits hbelongs hwritten
  simp only [readPiece, hread, hfit]

/-- What is written of values is read as the values. -/
theorem readPieces_of_writtenAs {kinds : List Kind} {shape : List ElementType}
    {values : List Value} {pieces : List (List Char)} (policy : Policy) (narrowing : Narrowing)
    (index : Nat) (hlength : kinds.length = shape.length)
    (hsuits : ∀ e ∈ kinds.zip shape, e.1.suits e.2 = true)
    (hbelongs : List.Forall₂ (fun e v => Value.Belongs e.1 e.2 v) (kinds.zip shape) values)
    (hwritten : List.Forall₂ (fun e cs => Value.WrittenAs e.1 e.2 cs) (kinds.zip values) pieces) :
    readPieces ⟨policy, .base16, narrowing⟩ index (pieces.zip (kinds.zip shape))
      = .ok ⟨[], .matched values⟩ := by
  induction kinds generalizing shape values pieces index with
  | nil =>
      obtain rfl := List.forall₂_nil_left_iff.mp hbelongs
      obtain rfl := List.forall₂_nil_left_iff.mp hwritten
      rfl
  | cons kind kinds ih =>
      obtain ⟨target, shape, rfl⟩ := List.exists_cons_of_length_eq_add_one hlength.symm
      obtain ⟨hhead, htail⟩ := List.forall_mem_cons.mp hsuits
      obtain ⟨v, values, hv, hvalues, rfl⟩ := List.forall₂_cons_left_iff.mp hbelongs
      obtain ⟨cs, pieces, hcs, hpieces, rfl⟩ := List.forall₂_cons_left_iff.mp hwritten
      have hread := readPiece_of_writtenAs policy narrowing index hhead hv hcs
      have hrest := ih (index + 1) (Nat.succ.inj hlength) htail hvalues hpieces
      rw [List.zip_cons_cons, List.zip_cons_cons, readPieces_of_value hhead hread, hrest]
      rfl

namespace Pattern

/-- The text that is put together from the literals of a valid pattern,
in any letter case, and what is written of values that belong to its
elements, matches with exactly these values, if no two placeholders
stand side by side and every piece with a literal behind it ends
there. Base sixteen must be read as such; the other options do not
matter. -/
theorem report_written {p : Pattern} {values : List Value} {matched pieces : List (List Char)}
    (policy : Policy) (narrowing : Narrowing) (hcheck : p.check = .ok ())
    (hsep : Separated p.tokens)
    (hbelongs : List.Forall₂ (fun e v => Value.Belongs e.1 e.2 v) (p.kinds.zip p.shape) values)
    (hwritten : List.Forall₂ (fun e cs => Value.WrittenAs e.1 e.2 cs) (p.kinds.zip values) pieces)
    (hmatched : List.Forall₂ SameUpToCase p.literals matched)
    (hdelim : Delimited p.tokens pieces) :
    p.report ⟨policy, .base16, narrowing⟩
        (Text.ofChars (interleave p.tokens matched pieces).flatten)
      = .ok ⟨[], .matched values⟩ := by
  obtain ⟨hlength, hsuits⟩ := check_eq_ok_iff.mp hcheck
  have hvalues : values.length = p.kinds.length := by
    rw [← hbelongs.length_eq, List.length_zip, ← hlength, Nat.min_self]
  have hpieces : pieces.length = p.kinds.length := by
    rw [← hwritten.length_eq, List.length_zip, hvalues, Nat.min_self]
  exact report_eq_matched_iff.mpr ⟨pieces, pieces_interleave hmatched hpieces hsep hdelim, hlength,
    readPieces_of_writtenAs policy narrowing 0 hlength hsuits hbelongs hwritten⟩

/-- A negative number in base sixteen, and a text behind a slash that
holds another one. -/
theorem report_written_hex_text :
    let p : Pattern :=
      ⟨[], [.literal ['a'], .placeholder .hex, .literal ['/'], .placeholder .string],
        [.int32, .str]⟩
    p.report ⟨.strict, .base16, .checked⟩
        (Text.ofChars ('A' :: List.replicate 16 'F' ++ ['/', 'b', '/']))
      = .ok ⟨[], .matched [.int (-1), .str (Text.ofChars ['b', '/'])]⟩ := by
  intro p
  have hcheck : p.check = .ok () := rfl
  have hsep : Separated p.tokens := by simp [p, separated_cons_iff]
  have hbelongs : List.Forall₂ (fun e v => Value.Belongs e.1 e.2 v) (p.kinds.zip p.shape)
      [.int (-1), .str (Text.ofChars ['b', '/'])] :=
    .cons ⟨by decide, by decide⟩ (.cons ⟨_, rfl, fun h => by cases h⟩ .nil)
  have hwritten : List.Forall₂ (fun e cs => Value.WrittenAs e.1 e.2 cs)
      (p.kinds.zip [.int (-1), .str (Text.ofChars ['b', '/'])])
      [List.replicate 16 'F', ['b', '/']] :=
    .cons (by decide : (List.replicate 16 'F').map hexDigit? = _) (.cons rfl .nil)
  have hmatched : List.Forall₂ SameUpToCase p.literals [['A'], ['/']] :=
    .cons (.cons (by decide) .nil) (.cons (.refl _) .nil)
  have hdelim : Delimited p.tokens [List.replicate 16 'F', ['b', '/']] := by
    refine delimited_literal_iff.mpr (delimited_placeholder_iff.mpr ⟨fun literal hl => ?_, ?_⟩)
    · obtain rfl := Token.literal.inj (Option.some.inj hl)
      decide
    · refine delimited_literal_iff.mpr (delimited_placeholder_iff.mpr ⟨fun _ hl => ?_, ?_⟩)
      · cases hl
      · exact fun i _ _ _ ht => by cases ht
  exact report_written .strict .checked hcheck hsep hbelongs hwritten hmatched hdelim

/-- A lone half is one code point, and it is read and fitted as one, but
no text in which it stands is ever cut. -/
theorem report_lone_half :
    let p : Pattern := ⟨Text.ofChars ['%', 's'], [.placeholder .string], [.char]⟩
    let t : Text := [.lone 0]
    p.check = .ok () ∧ Separated p.tokens ∧ t.length = 1 ∧
      Kind.read? .string .base16 t = some (.str t) ∧
      ∀ narrowing, (Value.str t).fit .char narrowing = .ok (some (.str t)) ∧
        p.report ⟨.strict, .base16, narrowing⟩ t
          = .ok ⟨[.rejected t p.directive .unencodable], .mismatch .unencodable⟩ := by
  exact ⟨rfl, by simp [separated_cons_iff], rfl, rfl, fun narrowing => ⟨rfl, rfl⟩⟩

end Pattern

end Unformat
