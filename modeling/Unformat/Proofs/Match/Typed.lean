/-
The values of a match have the types of the shape. What a type admits
(`ElementType.Admits`) is said without the readers and without fitting.
Two steps lead to it:

- what a kind reads is a value of that kind, an integer within 64 bits
  (`Value.OfKind`, `ofKind_of_read?`);
- what is fitted to a type that the kind suits is a value of that type
  (`admits_of_fit`), although fitting leaves a value alone where the
  type has no rule for it.

A match may be short of values under the lenient policy. Then each value
stands for a position of the shape, and the positions left out are those
whose piece yields none (`Pattern.values_admitted`).
-/
import Mathlib.Algebra.Group.Int.Defs
import Unformat.Proofs.Match.Values
import Unformat.Proofs.Shape.Narrowing

namespace Unformat

-- ============================================== statement vocabulary

/-- The values of a type: texts, of one character where the type says
so, truth values, integers in the range of the type, decimals, and
floating-point numbers. -/
def ElementType.Admits : ElementType → Value → Prop
  | .str, .str _ => True
  | .char, .str t => t.length = 1
  | .bool, .bool _ => True
  | .int64, .int n => -2 ^ 63 ≤ n ∧ n ≤ 2 ^ 63 - 1
  | .int32, .int n => -2 ^ 31 ≤ n ∧ n ≤ 2 ^ 31 - 1
  | .uint32, .int n => 0 ≤ n ∧ n ≤ 2 ^ 32 - 1
  | .decimal, .decimal _ => True
  | .float, .float _ => True
  | _, _ => False

/-- The values that a kind reads. -/
def Value.OfKind : Kind → Value → Prop
  | .string, .str _ => True
  | .char, .str t => t.length = 1
  | .bool, .bool _ => True
  | .int, .int n => fitsInt64 n = true
  | .decimal, .decimal _ => True
  | .hex, .int n => fitsInt64 n = true
  | _, _ => False

-- ============================================================= reading

variable {kind : Kind} {target : ElementType} {narrowing : Narrowing} {u v : Value}

theorem readChar?_eq_some_iff {t t' : Text} : readChar? t = some t' ↔ t.length = 1 ∧ t = t' := by
  unfold readChar?
  rw [Option.ite_none_right_eq_some, Option.some_inj]

/-- What a kind reads is a value of that kind. -/
theorem ofKind_of_read? {mode : HexReading} {t : Text} (h : kind.read? mode t = some u) :
    u.OfKind kind := by
  cases kind with
  | string =>
      obtain rfl := Option.some.inj h
      trivial
  | char =>
      obtain ⟨t', hread, rfl⟩ := Option.map_eq_some_iff.mp h
      obtain ⟨hone, rfl⟩ := readChar?_eq_some_iff.mp hread
      exact hone
  | bool =>
      obtain ⟨b, -, rfl⟩ := Option.map_eq_some_iff.mp h
      trivial
  | int =>
      obtain ⟨n, -, rfl⟩ := Option.map_eq_some_iff.mp h
      exact fitsInt64_of_read? h
  | decimal =>
      obtain ⟨d, -, rfl⟩ := Option.map_eq_some_iff.mp h
      trivial
  | hex =>
      obtain ⟨n, -, rfl⟩ := Option.map_eq_some_iff.mp h
      exact fitsInt64_of_read? h

-- ============================================================= fitting

/-- A text that is fitted to a type for texts is one of that type. -/
theorem admits_of_fit_str {t : Text} (hsuits : Kind.string.suits target = true)
    (hfit : (Value.str t).fit target narrowing = .ok (some v)) : target.Admits v := by
  cases target with
  | str =>
      cases Except.ok.inj hfit
      trivial
  | char =>
      obtain ⟨t', hread, rfl⟩ := Option.map_eq_some_iff.mp (Except.ok.inj hfit)
      obtain ⟨hone, rfl⟩ := readChar?_eq_some_iff.mp hread
      exact hone
  | _ => cases hsuits

/-- A 64-bit integer that is fitted to a type for numbers is a value of
that type. -/
theorem admits_of_fit_int {n : Int} (hn : fitsInt64 n = true)
    (hsuits : Kind.int.suits target = true)
    (hfit : (Value.int n).fit target narrowing = .ok (some v)) : target.Admits v := by
  cases target with
  | int64 =>
      cases Except.ok.inj hfit
      have := fitsInt64_iff.mp hn
      exact ⟨by omega, by omega⟩
  | int32 =>
      obtain ⟨m, hm, rfl⟩ := Option.map_eq_some_iff.mp (Except.ok.inj hfit)
      rw [eq_wrapped_of_narrow hm]
      exact wrapSigned32_range n
  | uint32 =>
      obtain ⟨m, hm, rfl⟩ := Option.map_eq_some_iff.mp (Except.ok.inj hfit)
      rw [eq_wrapped_of_narrow hm]
      exact wrapUnsigned32_range n
  | decimal =>
      cases Except.ok.inj hfit
      trivial
  | float =>
      obtain ⟨x, hx⟩ := Binary64.exists_ofInt?_eq_some hn
      simp only [Value.fit, hx] at hfit
      cases Except.ok.inj hfit
      trivial
  | _ => cases hsuits

/-- A value of a kind that is fitted to a type which the kind suits is a
value of that type. -/
theorem admits_of_fit (hsuits : kind.suits target = true) (hkind : u.OfKind kind)
    (hfit : u.fit target narrowing = .ok (some v)) : target.Admits v := by
  cases kind with
  | string =>
      cases u with
      | str t => exact admits_of_fit_str hsuits hfit
      | _ => exact hkind.elim
  | char =>
      -- the kinds of texts suit the same types
      have hstring : Kind.string.suits target = true := by
        cases target <;> first | rfl | cases hsuits
      cases u with
      | str t => exact admits_of_fit_str hstring hfit
      | _ => exact hkind.elim
  | bool =>
      cases u with
      | bool b =>
          cases target with
          | bool =>
              cases Except.ok.inj hfit
              trivial
          | _ => cases hsuits
      | _ => exact hkind.elim
  | int =>
      cases u with
      | int n => exact admits_of_fit_int hkind hsuits hfit
      | _ => exact hkind.elim
  | decimal =>
      cases u with
      | decimal d =>
          cases target with
          | decimal =>
              cases Except.ok.inj hfit
              trivial
          | float =>
              cases Except.ok.inj hfit
              trivial
          | _ => cases hsuits
      | _ => exact hkind.elim
  | hex =>
      -- base sixteen is for integer types alone, which base ten suits as well
      have hint : Kind.int.suits target = true := by
        cases target <;> first | rfl | cases hsuits
      cases u with
      | int n => exact admits_of_fit_int hkind hint hfit
      | _ => exact hkind.elim

/-- The value of an entry has the entry's type. -/
theorem Entry.admits {options : Settings} {e : Entry} (hsuits : e.2.1.suits e.2.2 = true)
    (h : e.value? options = some v) : e.2.2.Admits v := by
  obtain ⟨piece, kind, target⟩ := e
  obtain ⟨u, hread, hfit⟩ := Entry.value?_eq_some_iff.mp h
  exact admits_of_fit hsuits (ofKind_of_read? hread) hfit

-- =========================================================== positions

namespace Pattern

variable {p : Pattern} {options : Settings} {t : Text} {pieces : List (List Char)}

/-- Only at the index of an entry is there a value. -/
theorem lt_of_isSome_value? {i : Nat} (h : (p.value? options pieces i).isSome) :
    i < (p.entries pieces).length := by
  obtain ⟨v, hv⟩ := Option.isSome_iff_exists.mp h
  obtain ⟨e, he, -⟩ := Option.bind_eq_some_iff.mp hv
  exact (List.getElem?_eq_some_iff.mp he).1

/-- The value at an index has the type of the shape there. -/
theorem admits_of_value? (hpieces : t.pieces p.tokens = .ok pieces)
    (hshape : p.kinds.length = p.shape.length)
    (hsuits : ∀ e ∈ p.entries pieces, e.2.1.suits e.2.2 = true) {i : Nat} {v : Value}
    (h : p.value? options pieces i = some v) :
    ∃ target, p.shape[i]? = some target ∧ target.Admits v := by
  obtain ⟨e, he, hev⟩ := Option.bind_eq_some_iff.mp h
  refine ⟨e.2.2, ?_, Entry.admits (hsuits e (List.mem_of_getElem? he)) hev⟩
  rw [← map_target_entries hpieces hshape, List.getElem?_map, he, Option.map_some]

/-- If every entry yields a value, these have exactly the types of the
shape. -/
theorem admits_of_all_values (hpieces : t.pieces p.tokens = .ok pieces)
    (hshape : p.kinds.length = p.shape.length)
    (hsuits : ∀ e ∈ p.entries pieces, e.2.1.suits e.2.2 = true)
    (hall : ∀ e ∈ p.entries pieces, (e.value? options).isSome) :
    List.Forall₂ ElementType.Admits p.shape
      ((p.entries pieces).filterMap (Entry.value? options)) := by
  have hbeside := forall₂_filter_filterMap (Entry.value? options) (p.entries pieces)
  rw [List.filter_eq_self.mpr hall] at hbeside
  rw [← map_target_entries hpieces hshape, List.forall₂_map_left_iff]
  refine ((List.forall₂_and_left _ _).mpr ⟨hsuits, hbeside⟩).imp fun e v hev => ?_
  exact Entry.admits hev.1 hev.2

/-- The values of a match are values of the pieces at positions in
ascending order, each of the type at its position. The positions are
those whose pieces yield a value, under the strict policy all, so that
the values have exactly the types of the shape. -/
theorem values_admitted {p : Pattern} {options : Settings} {t : Text} {log : List Event}
    {values : List Value} (h : p.report options t = .ok ⟨log, .matched values⟩) :
    ∃ pieces positions, t.pieces p.tokens = .ok pieces ∧ positions.Pairwise (· < ·) ∧
      (∀ i, i ∈ positions ↔ (p.value? options pieces i).isSome) ∧
      List.Forall₂ (fun i v => p.value? options pieces i = some v ∧
        ∃ target, p.shape[i]? = some target ∧ target.Admits v) positions values ∧
      (options.policy = .strict → positions = List.range p.shape.length ∧
        List.Forall₂ ElementType.Admits p.shape values) := by
  obtain ⟨pieces, hpieces, hshape, hread⟩ := report_eq_matched_iff.mp h
  change readPieces options 0 (p.entries pieces) = _ at hread
  have hsuits := suits_of_matched hread
  have hvalues := values_eq_of_matched hread
  have hlength := length_entries hpieces hshape
  refine ⟨pieces, (List.range (p.entries pieces).length).filter
    fun i => (p.value? options pieces i).isSome, hpieces, ?_, ?_, ?_, ?_⟩
  · exact List.pairwise_lt_range.filter _
  · intro i
    rw [List.mem_filter, List.mem_range]
    exact and_iff_right_of_imp lt_of_isSome_value?
  · rw [hvalues, filterMap_entries]
    refine (forall₂_filter_filterMap _ _).imp fun i v hv => ⟨hv, ?_⟩
    exact admits_of_value? hpieces hshape hsuits hv
  · intro hpolicy
    have hall := values_of_strict_matched hpolicy hread
    constructor
    · rw [hlength, hshape, List.filter_eq_self]
      intro i hi
      rw [List.mem_range, ← hshape, ← hlength] at hi
      rw [value?, List.getElem?_eq_getElem hi]
      exact hall _ (List.getElem_mem hi)
    · rw [hvalues]
      exact admits_of_all_values hpieces hshape hsuits hall

/-- A text that is too long for its type is left out, and the numbers
around it keep their own types. -/
theorem values_admitted_around_text :
    let p : Pattern :=
      ⟨[], [.placeholder .int, .literal [','], .placeholder .string, .literal [','],
        .placeholder .int], [.uint32, .char, .int64]⟩
    let options : Settings := ⟨.lenient, .legacy, .wrap⟩
    let t : Text := Text.ofChars ['-', '1', ',', 'a', 'b', ',', '7']
    let values : List Value := [.int 0xFFFFFFFF, .int 7]
    p.report options t = .ok ⟨[.dropped (.unfit 1 ['a', 'b'] .char)], .matched values⟩ ∧
      ∃ pieces positions, t.pieces p.tokens = .ok pieces ∧ positions.Pairwise (· < ·) ∧
        (∀ i, i ∈ positions ↔ (p.value? options pieces i).isSome) ∧
        List.Forall₂ (fun i v => p.value? options pieces i = some v ∧
          ∃ target, p.shape[i]? = some target ∧ target.Admits v) positions values := by
  intro p options t values
  have h : p.report options t
      = .ok ⟨[.dropped (.unfit 1 ['a', 'b'] .char)], .matched values⟩ := rfl
  obtain ⟨pieces, positions, hpieces, hsorted, hmem, hvalues, -⟩ := values_admitted h
  exact ⟨h, pieces, positions, hpieces, hsorted, hmem, hvalues⟩

end Pattern

end Unformat
