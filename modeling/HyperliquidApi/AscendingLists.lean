import Mathlib

/-!
# Lists ascending in a key

A list whose keys strictly increase is determined by its members, and a window of keys
is a contiguous piece of it. Nothing here depends on what the elements are.
-/
namespace HyperliquidApi.AscendingLists

variable {α κ : Type*} [LinearOrder κ] {key : α → κ}

/-- Keys strictly increase along the list. -/
def Ascending (key : α → κ) (l : List α) : Prop := l.Pairwise (fun a b => key a < key b)

lemma Ascending.sublist {l l' : List α} (h : Ascending key l) (hs : l'.Sublist l) :
    Ascending key l' := List.Pairwise.sublist hs h

lemma Ascending.filter {l : List α} (h : Ascending key l) (p : α → Bool) :
    Ascending key (l.filter p) := h.sublist List.filter_sublist

lemma Ascending.nodup {l : List α} (h : Ascending key l) : l.Nodup :=
  List.Pairwise.imp (fun hlt he => absurd (he ▸ hlt) (lt_irrefl _)) h

/-- An ascending list is determined by its members. -/
theorem Ascending.ext {l l' : List α} (h : Ascending key l) (h' : Ascending key l')
    (hm : ∀ a, a ∈ l ↔ a ∈ l') : l = l' := by
  have hp : l.Perm l' := (List.perm_ext_iff_of_nodup h.nodup h'.nodup).mpr hm
  refine List.Perm.eq_of_pairwise (fun a b _ _ hab hba => ?_) h h' hp
  exact absurd hab (lt_asymm hba)

lemma Ascending.append {l l' : List α} (h : Ascending key l) (h' : Ascending key l')
    (hlt : ∀ a ∈ l, ∀ b ∈ l', key a < key b) : Ascending key (l ++ l') :=
  List.pairwise_append.mpr ⟨h, h', hlt⟩

lemma pairwise_apart {R : α → α → Prop} {l : List α} (h : l.Pairwise R) {a b : α} (ha : a ∈ l)
    (hb : b ∈ l) : a = b ∨ R a b ∨ R b a := by
  have : Std.Symm fun x y => R x y ∨ R y x := ⟨fun _ _ => Or.symm⟩
  by_cases he : a = b
  · exact Or.inl he
  · exact Or.inr ((h.imp (S := fun x y => R x y ∨ R y x) Or.inl).forall ha hb he)

lemma Ascending.le_getLast {l : List α} (h : Ascending key l) {x : α} (hx : l.getLast? = some x)
    {a : α} (ha : a ∈ l) : key a ≤ key x := by
  obtain ⟨init, rfl⟩ := List.getLast?_eq_some_iff.mp hx
  rcases List.mem_append.mp ha with hi | he
  · exact ((List.pairwise_append.mp h).2.2 a hi x (by simp)).le
  · rw [List.mem_singleton.mp he]

/-- Nonempty intervals, each before the next, are before one another throughout the list. -/
lemma pairwise_of_consecutive {start stop : α → κ} {l : List α} (hne : ∀ a ∈ l, start a ≤ stop a)
    (h : l.IsChain fun a b => stop a < start b) : l.Pairwise fun a b => stop a < start b := by
  have : IsTrans α fun a b => stop a < start b ∧ start b ≤ stop b :=
    ⟨fun a b c hab hbc => ⟨hab.1.trans_le (hab.2.trans hbc.1.le), hbc.2⟩⟩
  have hc : l.IsChain fun a b => stop a < start b ∧ start b ≤ stop b :=
    h.imp_of_mem_imp fun a b _ hb hab => ⟨hab, hne b hb⟩
  exact (List.isChain_iff_pairwise.mp hc).imp And.left

/-- Two windows of an ascending list, the first wholly below the second, lie side by side in
the window that covers both. -/
theorem Ascending.filter_append_filter {l : List α} (h : Ascending key l) {p q r : α → Bool}
    (hr : ∀ a ∈ l, r a = (p a || q a))
    (hpq : ∀ a ∈ l, ∀ b ∈ l, p a → q b → key a < key b) :
    l.filter p ++ l.filter q = l.filter r := by
  refine Ascending.ext ((h.filter p).append (h.filter q) ?_) (h.filter r) ?_
  · intro a ha b hb
    obtain ⟨hal, hap⟩ := List.mem_filter.mp ha
    obtain ⟨hbl, hbq⟩ := List.mem_filter.mp hb
    exact hpq a hal b hbl hap hbq
  · intro a
    simp only [List.mem_append, List.mem_filter]
    constructor
    · rintro (⟨hl, hp⟩ | ⟨hl, hq⟩)
      · exact ⟨hl, by simp [hr a hl, hp]⟩
      · exact ⟨hl, by simp [hr a hl, hq]⟩
    · rintro ⟨hl, ha⟩
      rw [hr a hl, Bool.or_eq_true] at ha
      exact ha.imp (⟨hl, ·⟩) (⟨hl, ·⟩)

theorem ascending_mergeSort {l : List α} (h : (l.map key).Nodup) :
    Ascending key (l.mergeSort fun a b => decide (key a ≤ key b)) := by
  have hs : (l.mergeSort fun a b => decide (key a ≤ key b)).Pairwise
      (fun a b => decide (key a ≤ key b)) :=
    List.pairwise_mergeSort (fun a b c hab hbc => by simp at *; exact hab.trans hbc)
      (fun a b => by simpa using le_total (key a) (key b)) l
  have hp := List.mergeSort_perm l fun a b => decide (key a ≤ key b)
  have hd : ((l.mergeSort fun a b => decide (key a ≤ key b)).map key).Nodup :=
    (hp.map key).nodup_iff.mpr h
  refine (hs.and (List.pairwise_map.mp hd)).imp ?_
  rintro a b ⟨hle, hne⟩
  exact lt_of_le_of_ne (by simpa using hle) hne

end HyperliquidApi.AscendingLists
