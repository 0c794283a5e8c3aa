/-
Which handlers are bound in a session, told from its steps alone
(`Session.handlers_after`): the ids in the order in which they were first
bound, each with the handler bound under it last. A binding that fails
counts for nothing.

Two facts about entries under keys meet here. A list of entries in which
no key comes twice is known by its keys in order and by the entry under
each (`Keyed.eq_filterMap_find?`); and putting entries one after the
other never makes a key come twice, orders the keys as they first came,
and keeps the last entry under each.
-/
import Mathlib.Data.List.Induction
import Mathlib.Data.List.Nodup
import Unformat.Session.Basic

namespace Unformat

-- ================================================== entries under keys

namespace Keyed

variable {κ ν : Type}

theorem keys_cons (key : κ) (v : ν) (entries : Keyed κ ν) :
    keys ((key, v) :: entries) = key :: keys entries := rfl

variable [DecidableEq κ]

theorem find?_put (key other : κ) (v : ν) (entries : Keyed κ ν) :
    find? other (put key v entries) = if key = other then some v else find? other entries := by
  by_cases h : key = other
  · rw [if_pos h, ← h, find?_put_self]
  · rw [if_neg h, find?_put_of_ne (Ne.symm h)]

/-- A new key comes last; a known one stays where it is. -/
theorem keys_put (key : κ) (v : ν) (entries : Keyed κ ν) :
    keys (put key v entries) =
      if key ∈ keys entries then keys entries else keys entries ++ [key] := by
  induction entries with
  | nil => rfl
  | cons e rest ih =>
      obtain ⟨k, w⟩ := e
      by_cases hk : k = key
      · simp [put, keys_cons, hk]
      · have hmem : key ∈ k :: keys rest ↔ key ∈ keys rest := by
          simp [Ne.symm hk]
        rw [put, if_neg hk, keys_cons, ih, keys_cons]
        by_cases hkey : key ∈ keys rest
        · rw [if_pos hkey, if_pos (hmem.mpr hkey)]
        · rw [if_neg hkey, if_neg (mt hmem.mp hkey), List.cons_append]

/-- Entries without a repeated key are known by their keys and by the
entry under each. -/
theorem eq_filterMap_find? {entries : Keyed κ ν} (h : (keys entries).Nodup) :
    entries = (keys entries).filterMap fun key => (find? key entries).map (key, ·) := by
  induction entries with
  | nil => rfl
  | cons e rest ih =>
      obtain ⟨k, v⟩ := e
      obtain ⟨hk, hrest⟩ := List.nodup_cons.mp h
      have htail : (keys rest).filterMap (fun key => (find? key ((k, v) :: rest)).map (key, ·)) =
          rest := by
        conv_rhs => rw [ih hrest]
        refine List.filterMap_congr fun key hkey => ?_
        have hne : ¬ k = key := fun h => hk (h ▸ hkey)
        rw [find?, if_neg hne]
      rw [keys_cons, List.filterMap_cons, find?, if_pos rfl]
      exact congrArg _ htail.symm

/-- Puts entries one after the other. -/
def putAll (entries : List (κ × ν)) : Keyed κ ν :=
  entries.foldl (fun known e => put e.1 e.2 known) []

/-- The last entry under each key, the keys in the order in which they
first came. -/
def latest (entries : List (κ × ν)) : Keyed κ ν :=
  (entries.map Prod.fst).eraseDups.filterMap fun key =>
    (find? key entries.reverse).map (key, ·)

theorem putAll_concat (entries : List (κ × ν)) (e : κ × ν) :
    putAll (entries ++ [e]) = put e.1 e.2 (putAll entries) := by
  rw [putAll, List.foldl_concat]
  rfl

theorem find?_putAll (key : κ) (entries : List (κ × ν)) :
    find? key (putAll entries) = find? key entries.reverse := by
  induction entries using List.reverseRecOn with
  | nil => rfl
  | append_singleton entries e ih =>
      rw [putAll_concat, find?_put, ih, List.reverse_concat]
      rfl

theorem keys_putAll (entries : List (κ × ν)) :
    keys (putAll entries) = (entries.map Prod.fst).eraseDups := by
  induction entries using List.reverseRecOn with
  | nil => rfl
  | append_singleton entries e ih =>
      rw [putAll_concat, keys_put, ih, List.map_append, List.eraseDups_append]
      simp only [List.mem_eraseDups, List.map_cons, List.map_nil]
      split
      case isTrue h => simp [List.removeAll, h]
      case isFalse h => simp [List.removeAll, h, List.eraseDups_cons]

theorem nodup_keys_putAll (entries : List (κ × ν)) : (keys (putAll entries)).Nodup := by
  induction entries using List.reverseRecOn with
  | nil => exact List.nodup_nil
  | append_singleton entries e ih =>
      rw [putAll_concat, keys_put]
      split
      case isTrue => exact ih
      case isFalse h => exact List.nodup_append_comm.mp (List.nodup_cons.mpr ⟨h, ih⟩)

/-- Entries put one after the other leave the last one under each key. -/
theorem putAll_eq_latest (entries : List (κ × ν)) : putAll entries = latest entries := by
  rw [eq_filterMap_find? (nodup_keys_putAll entries), keys_putAll, latest]
  simp only [find?_putAll]

end Keyed

-- ============================================================ bindings

/-- What a step binds, if it does not fail. -/
def Step.binding? : Step → Option (String × Handler)
  | .bind id callback source => (source.handler callback).toOption.map (id, ·)
  | _ => none

/-- The handlers bound after some steps: the ids in the order in which
they were first bound, each with the last handler bound under it. -/
def bound (steps : List Step) : Keyed String Handler :=
  Keyed.latest (steps.filterMap Step.binding?)

namespace Session

/-- A step puts what it binds, and changes no other handler. -/
theorem handlers_step (s : Session) (x : Step) :
    (s.step x).1.handlers =
      x.binding?.elim s.handlers fun b => Keyed.put b.1 b.2 s.handlers := by
  cases x with
  | bind id callback source =>
      have hmention : (s.mention callback).handlers = s.handlers := by
        cases callback <;> rfl
      cases h : source.handler callback with
      | error e => simp [step, Step.binding?, h, hmention, Except.toOption]
      | ok handler => simp [step, Step.binding?, h, hmention, Except.toOption]
  | offer t => rfl
  | tryOne id t =>
      simp only [step, Step.binding?, Option.elim_none]
      cases Keyed.find? id s.handlers with
      | none => rfl
      | some handler => rfl
  | «match» id t =>
      simp only [step, Step.binding?, Option.elim_none]
      cases Keyed.find? id s.handlers with
      | none => rfl
      | some handler =>
          simp only
          cases handler.report t with
          | error e => rfl
          | ok r => rfl
  | invoke id values =>
      simp only [step, Step.binding?, Option.elim_none]
      cases Keyed.find? id s.handlers with
      | none => rfl
      | some handler => rfl
  | reset recorder => rfl

/-- The session after some steps from the start. -/
def after (steps : List Step) : Session :=
  ({} : Session).run steps

theorem after_concat (steps : List Step) (x : Step) :
    after (steps ++ [x]) = ((after steps).step x).1 :=
  List.foldl_concat _ _ x steps

/-- The handlers of a session are those that its steps bound. -/
theorem handlers_after (steps : List Step) : (after steps).handlers = bound steps := by
  rw [bound, ← Keyed.putAll_eq_latest]
  induction steps using List.reverseRecOn with
  | nil => rfl
  | append_singleton steps x ih =>
      rw [after_concat, handlers_step, ih, List.filterMap_append]
      cases hx : x.binding? with
      | none => simp [hx]
      | some b => simp [hx, Keyed.putAll_concat]

end Session

end Unformat
