/-
What binding does to a session, and what it never does
(`Session.handlers_valid`).

In every session that steps lead to, the pattern of every handler passes
its check: a handler comes into a session by a binding alone, and is
checked when it is made (`Session.Valid.step`). So no match of such a
handler is rejected for its shape.

A binding that fails leaves all handlers as they were, and one that
succeeds puts its handler in the place of its id or behind all others.
Either way the recorders stay as they were, and one named for the first
time comes last, without calls (`Session.recorders_bind`). No other step
changes a handler.
-/
import Unformat.Proofs.Match.Rejection
import Unformat.Proofs.Session.Bound
import Unformat.Proofs.Session.Sources

namespace Unformat

-- ================================================== entries under keys

namespace Keyed

variable {κ ν : Type} [DecidableEq κ] {key : κ} {v : ν} {entries : Keyed κ ν}

/-- Putting adds no entry but its own. -/
theorem eq_or_mem_of_mem_put {e : κ × ν} (h : e ∈ put key v entries) :
    e = (key, v) ∨ e ∈ entries := by
  induction entries with
  | nil => exact .inl (List.mem_singleton.mp h)
  | cons d rest ih =>
      obtain ⟨k, w⟩ := d
      by_cases hk : k = key
      · rw [put, if_pos hk, hk] at h
        rcases List.mem_cons.mp h with he | he
        · exact .inl he
        · exact .inr (List.mem_cons_of_mem _ he)
      · rw [put, if_neg hk] at h
        rcases List.mem_cons.mp h with he | he
        · exact .inr (he ▸ List.mem_cons_self)
        · exact (ih he).imp_right (List.mem_cons_of_mem _)

theorem put_of_not_mem (h : key ∉ keys entries) : put key v entries = entries ++ [(key, v)] := by
  induction entries with
  | nil => rfl
  | cons d rest ih =>
      obtain ⟨k, w⟩ := d
      obtain ⟨hne, hrest⟩ := not_or.mp (mt List.mem_cons.mpr h)
      rw [put, if_neg (Ne.symm hne), ih hrest, List.cons_append]

/-- Putting what stands under a key changes nothing. -/
theorem put_of_find? (h : find? key entries = some v) : put key v entries = entries := by
  induction entries with
  | nil => cases h
  | cons d rest ih =>
      obtain ⟨k, w⟩ := d
      by_cases hk : k = key
      · rw [find?, if_pos hk] at h
        rw [put, if_pos hk, Option.some.inj h]
      · rw [find?, if_neg hk] at h
        rw [put, if_neg hk, ih h]

theorem find?_eq_none_iff : find? key entries = none ↔ key ∉ keys entries := by
  induction entries with
  | nil => simp [find?, keys]
  | cons d rest ih =>
      obtain ⟨k, w⟩ := d
      rw [keys_cons, List.mem_cons, not_or, ← ih, find?]
      by_cases hk : k = key
      · simp [hk]
      · simp [hk, Ne.symm hk]

/-- If no key comes twice, putting replaces the entry of a known key
where it stands, and adds one behind all others for a new key. -/
theorem put_eq (h : (keys entries).Nodup) :
    put key v entries =
      if key ∈ keys entries then entries.map fun e => if e.1 = key then (key, v) else e
      else entries ++ [(key, v)] := by
  split
  case isFalse hkey => exact put_of_not_mem hkey
  case isTrue hkey =>
    induction entries with
    | nil => cases hkey
    | cons d rest ih =>
        obtain ⟨k, w⟩ := d
        obtain ⟨hnew, hrest⟩ := List.nodup_cons.mp h
        rw [List.map_cons]
        by_cases hk : k = key
        · -- the key does not come again, so the rest stays as it is
          have hsame : rest.map (fun e => if e.1 = key then (key, v) else e) = rest.map id :=
            List.map_congr_left fun e he => if_neg fun hagain => hnew <| by
              rw [hk, ← hagain]
              exact List.mem_map.mpr ⟨e, he, rfl⟩
          rw [put, if_pos hk, if_pos hk, hsame, List.map_id, hk]
        · have hmem : key ∈ keys rest := (List.mem_cons.mp hkey).resolve_left (Ne.symm hk)
          rw [put, if_neg hk, if_neg hk, ih hrest hmem]

end Keyed

/-- A recorder that is known stays as it is, and a new one comes last,
without calls. -/
theorem Recorders.ensure_eq (name : String) (rs : Recorders) :
    Recorders.ensure name rs = if name ∈ Keyed.keys rs then rs else rs ++ [(name, ⟨[]⟩)] := by
  unfold Recorders.ensure Recorders.get
  split
  case isFalse hname =>
    rw [Keyed.find?_eq_none_iff.mpr hname, Keyed.put_of_not_mem hname]
    rfl
  case isTrue hname =>
    cases hfind : Keyed.find? name rs with
    | none => exact absurd hname (Keyed.find?_eq_none_iff.mp hfind)
    | some r => exact Keyed.put_of_find? hfind

namespace Session

variable {s : Session}

-- ============================================================ bindings

/-- The recorders after a binding, whether it fails or not. -/
theorem recorders_bind (s : Session) (id : String) (callback : Callback)
    (source : HandlerSource) :
    (s.step (.bind id callback source)).1.recorders = s.recorders ∨
      ∃ name, callback = .record name ∧ name ∉ Keyed.keys s.recorders ∧
        (s.step (.bind id callback source)).1.recorders = s.recorders ++ [(name, ⟨[]⟩)] := by
  have hmention : (s.step (.bind id callback source)).1.recorders =
      (s.mention callback).recorders := by
    simp only [step]
    cases source.handler callback <;> rfl
  rw [hmention]
  cases callback with
  | ignore => exact .inl rfl
  | fail message => exact .inl rfl
  | record name =>
      simp only [mention, Recorders.ensure_eq]
      by_cases hname : name ∈ Keyed.keys s.recorders
      · exact .inl (if_pos hname)
      · exact .inr ⟨name, rfl, hname, if_neg hname⟩

theorem step_bind_of_error {callback : Callback} {source : HandlerSource} {e : StepFault}
    (h : source.handler callback = .error e) (s : Session) (id : String) :
    (s.step (.bind id callback source)).2.1 = .failed e ∧
      (s.step (.bind id callback source)).1.handlers = s.handlers := by
  constructor
  · simp only [step, h]
  · rw [handlers_step, Step.binding?, h]
    rfl

theorem step_bind_of_ok {callback : Callback} {source : HandlerSource} {h : Handler}
    (hmade : source.handler callback = .ok h) (s : Session) (id : String) :
    (s.step (.bind id callback source)).2.1 = .bound h.options ∧
      (s.step (.bind id callback source)).1.handlers = Keyed.put id h s.handlers := by
  constructor
  · simp only [step, hmade]
  · rw [handlers_step, Step.binding?, hmade]
    rfl

-- ============================================================ validity

/-- The patterns of all handlers pass their check. -/
def Valid (s : Session) : Prop :=
  ∀ b ∈ s.handlers, b.2.pattern.check = .ok ()

/-- What a step binds has a pattern that passes its check. -/
theorem valid_of_binding? {x : Step} {b : String × Handler} (h : x.binding? = some b) :
    b.2.pattern.check = .ok () := by
  cases x with
  | bind id callback source =>
      obtain ⟨made, hmade, rfl⟩ := Option.map_eq_some_iff.mp h
      cases hsource : source.handler callback with
      | error e => simp [hsource, Except.toOption] at hmade
      | ok made' =>
          rw [hsource] at hmade
          obtain rfl := Option.some.inj hmade
          exact (HandlerSource.valid_of_handler hsource).1
  | _ => cases h

/-- No step brings a pattern into a session that does not pass its
check. -/
theorem Valid.step (h : s.Valid) (x : Step) : (s.step x).1.Valid := by
  intro b hb
  rw [handlers_step] at hb
  cases hbinding : x.binding? with
  | none =>
      rw [hbinding] at hb
      exact h b hb
  | some d =>
      rw [hbinding] at hb
      rcases Keyed.eq_or_mem_of_mem_put hb with rfl | hold
      · exact valid_of_binding? hbinding
      · exact h b hold

/-- All sessions that steps lead to are valid. -/
theorem valid_after (steps : List Step) : (after steps).Valid := by
  induction steps using List.reverseRecOn with
  | nil => exact fun b hb => absurd hb List.not_mem_nil
  | append_singleton steps x ih =>
      rw [after_concat]
      exact ih.step x

theorem nodup_keys_after (steps : List Step) : (Keyed.keys (after steps).handlers).Nodup := by
  rw [handlers_after, bound, ← Keyed.putAll_eq_latest]
  exact Keyed.nodup_keys_putAll _

/-- After any steps, the pattern of every handler passes its check, so
that no match is rejected for its shape, nor for a number of values that
is not that of the shape. A binding leaves the recorders as they are, but
may add one without calls. It either fails, for a fault of the shape or
of the configuration or for a directive that cannot be encoded, and leaves
the handlers as they are, or it puts its handler where its id stands, or
last if that is new. No other step changes a handler. -/
theorem handlers_valid (steps : List Step) :
    let s := after steps
    (∀ b ∈ s.handlers, b.2.pattern.check = .ok () ∧
      ∀ t r cause, b.2.report t = .ok r → r.outcome = .mismatch cause →
        cause.reason ≠ .shape ∧ (cause.reason = .arity → ∃ i, cause = .unseparated i)) ∧
    (∀ id callback source,
      let later := s.step (.bind id callback source)
      (later.1.recorders = s.recorders ∨
        ∃ name, callback = .record name ∧ name ∉ Keyed.keys s.recorders ∧
          later.1.recorders = s.recorders ++ [(name, ⟨[]⟩)]) ∧
      ((∃ e, later.2.1 = .failed e ∧ source.handler callback = .error e ∧
          ((∃ fault, e = .pattern (.shape fault)) ∨ (∃ fault, e = .config fault) ∨
            ∃ fault, e = .pattern (.encoding fault)) ∧
          later.1.handlers = s.handlers) ∨
        ∃ h, later.2.1 = .bound h.options ∧ source.handler callback = .ok h ∧
          h.callback = callback ∧
          later.1.handlers =
            if id ∈ Keyed.keys s.handlers then
              s.handlers.map fun b => if b.1 = id then (id, h) else b
            else s.handlers ++ [(id, h)])) ∧
    ∀ x, (∀ id callback source, x ≠ .bind id callback source) →
      (s.step x).1.handlers = s.handlers := by
  intro s
  refine ⟨fun b hb => ?_, fun id callback source => ⟨recorders_bind s id callback source, ?_⟩,
    fun x hx => ?_⟩
  · have hcheck := valid_after steps b hb
    exact ⟨hcheck, fun t r cause => Pattern.reason_of_check hcheck⟩
  · cases hmade : source.handler callback with
    | error e =>
        obtain ⟨hresult, hhandlers⟩ := step_bind_of_error hmade s id
        exact .inl ⟨e, hresult, rfl, HandlerSource.fault_of_handler hmade, hhandlers⟩
    | ok h =>
        obtain ⟨hresult, hhandlers⟩ := step_bind_of_ok hmade s id
        refine .inr ⟨h, hresult, rfl, (HandlerSource.valid_of_handler hmade).2, ?_⟩
        rw [hhandlers, Keyed.put_eq (nodup_keys_after steps)]
  · rw [handlers_step]
    cases x with
    | bind id callback source => exact absurd rfl (hx id callback source)
    | _ => rfl

end Session

end Unformat
