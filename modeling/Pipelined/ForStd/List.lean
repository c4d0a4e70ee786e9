import Mathlib.Data.List.Forall2
import Mathlib.Data.List.Perm.Basic
import Mathlib.Data.List.Nodup

/-!
# List lemmas for the standard library

Facts about filtering lists with distinct keys, used to show that a pass's result lists each
requested rule exactly once, and about lists related elementwise (`Forall₂`), used to relate
the threads and the queues of two runs; and about the last element of a strictly increasing
list of epochs.
-/

namespace List

variable {α β : Type} [DecidableEq β]

/-- In a list with distinct keys, the elements with `x`'s key are just `x`. -/
theorem filter_key_eq_singleton {f : α → β} {l : List α} (h : (l.map f).Nodup) {x : α}
    (hx : x ∈ l) : l.filter (fun y => f y = f x) = [x] := by
  induction l with
  | nil => simp at hx
  | cons y l ih =>
    rw [map_cons, nodup_cons] at h
    rcases mem_cons.1 hx with rfl | hx
    · have : ∀ z ∈ l, ¬f z = f x := fun z hz he => h.1 (he ▸ mem_map_of_mem f hz)
      simpa [filter_eq_nil_iff] using this
    · have hyx : f y ≠ f x := fun he => h.1 (he ▸ mem_map_of_mem f hx)
      simp [hyx, ih h.2 hx]

/-- Taking a sublist `F` of distinct elements out of a list `R` of distinct elements and
    putting it back at the end permutes `R`. -/
theorem filter_not_mem_append_perm {R F : List β} (hR : R.Nodup) (hF : F.Nodup) (hsub : F ⊆ R) :
    R.filter (· ∉ F) ++ F ~ R := by
  have hin : R.filter (· ∈ F) ~ F :=
    (perm_ext_iff_of_nodup (hR.filter _) hF).2 fun a => by simpa using fun h => hsub h
  calc R.filter (· ∉ F) ++ F
      ~ R.filter (· ∉ F) ++ R.filter (· ∈ F) := hin.symm.append_left _
    _ ~ R.filter (· ∈ F) ++ R.filter (· ∉ F) := perm_append_comm
    _ ~ R := by simpa using filter_append_perm (· ∈ F) R

/-- Two distinct members of a list come in one order or the other. -/
theorem sublist_pair_of_mem {α : Type} {x y : α} {l : List α} (hx : x ∈ l) (hy : y ∈ l)
    (hne : x ≠ y) : [x, y].Sublist l ∨ [y, x].Sublist l := by
  induction l with
  | nil => simp at hx
  | cons a l ih =>
    rcases mem_cons.1 hx with rfl | hx' <;> rcases mem_cons.1 hy with rfl | hy'
    · exact absurd rfl hne
    · exact .inl ((singleton_sublist.2 hy').cons₂ x)
    · exact .inr ((singleton_sublist.2 hx').cons₂ y)
    · exact (ih hx' hy').imp (·.cons a) (·.cons a)

/-- An element of `l₁ ++ l₂` at a given place is in `l₁` there, or in `l₂` after all of
    `l₁`. -/
theorem append_eq_append_cons {α : Type} {l₁ l₂ pre post : List α} {x : α}
    (h : l₁ ++ l₂ = pre ++ x :: post) :
    (∃ post', l₁ = pre ++ x :: post') ∨ x ∈ l₂ ∧ ∃ mid, pre = l₁ ++ mid := by
  rcases append_eq_append_iff.1 h with ⟨a', rfl, rfl⟩ | ⟨c', rfl, hc⟩
  · exact .inr ⟨by simp, a', rfl⟩
  · cases c' with
    | nil =>
      rw [nil_append] at hc
      exact .inr ⟨hc ▸ mem_cons_self x post, [], by simp⟩
    | cons y c'' =>
      obtain ⟨rfl, rfl⟩ := cons_eq_cons.1 hc
      exact .inl ⟨c'', rfl⟩

/-- Mapping the left parts of a list of sums, then keeping the left parts, is keeping them,
    then mapping. -/
theorem filterMap_getLeft?_map {α β γ δ : Type} (f : α → β) (g : γ → δ) (l : List (α ⊕ γ)) :
    (l.map (Sum.map f g)).filterMap Sum.getLeft? = (l.filterMap Sum.getLeft?).map f := by
  induction l with
  | nil => rfl
  | cons x l ih => cases x <;> simp [ih]

/-- The elements of two related lists at one index are related, or both missing. -/
theorem Forall₂.getElem? {α β : Type} {R : α → β → Prop} {l₁ : List α} {l₂ : List β}
    (h : Forall₂ R l₁ l₂) (i : Nat) : Option.Rel R l₁[i]? l₂[i]? := by
  induction h generalizing i with
  | nil => exact .none
  | cons hab _ ih =>
    cases i with
    | zero => simpa using Option.Rel.some hab
    | succ i => simpa using ih i

theorem Forall₂.set {α β : Type} {R : α → β → Prop} {l₁ : List α} {l₂ : List β}
    (h : Forall₂ R l₁ l₂) {a : α} {b : β} (hab : R a b) (i : Nat) :
    Forall₂ R (l₁.set i a) (l₂.set i b) := by
  induction h generalizing i with
  | nil => exact .nil
  | cons hxy hl ih =>
    cases i with
    | zero => exact .cons hab hl
    | succ i => exact .cons hxy (ih i)

theorem Forall₂.map_eq {α β γ : Type} {R : α → β → Prop} {l₁ : List α} {l₂ : List β}
    (h : Forall₂ R l₁ l₂) {f : α → γ} {g : β → γ} (hfg : ∀ a b, R a b → f a = g b) :
    l₁.map f = l₂.map g := by
  induction h with
  | nil => rfl
  | cons hab _ ih => rw [map_cons, map_cons, hfg _ _ hab, ih]

/-- In a strictly increasing list, no element is above the last. -/
theorem le_of_getLast?_eq {l : List Nat} (h : l.Pairwise (· < ·)) {e : Nat}
    (hl : l.getLast? = some e) {x : Nat} (hx : x ∈ l) : x ≤ e := by
  obtain ⟨ys, rfl⟩ := getLast?_eq_some_iff.1 hl
  rw [pairwise_append] at h
  rcases mem_append.1 hx with hx | hx
  · exact Nat.le_of_lt (h.2.2 x hx e (mem_singleton_self e))
  · exact Nat.le_of_eq (mem_singleton.1 hx)

/-- In a strictly increasing list, an element that no other is above is the last. -/
theorem getLast?_eq_of_mem {l : List Nat} (h : l.Pairwise (· < ·)) {e : Nat} (he : e ∈ l)
    (hmax : ∀ x ∈ l, x ≤ e) : l.getLast? = some e := by
  cases hl : l.getLast? with
  | none => simp_all [getLast?_eq_none_iff]
  | some last =>
    rw [Nat.le_antisymm (hmax last (mem_of_getLast?_eq_some hl)) (le_of_getLast?_eq h hl he)]

end List
