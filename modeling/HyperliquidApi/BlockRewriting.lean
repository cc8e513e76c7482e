import Mathlib

/-!
# Lists up to blocks

Two lists that agree except for some blocks, each of which stands in for another one. A word
that shares no letter with the blocks lies in both of them or in neither.
-/
namespace HyperliquidApi.BlockRewriting

variable {α β : Type*}

/-- Agree letter by letter, with blocks in the place of blocks. -/
inductive SameUpTo (block : List α → Prop) : List α → List α → Prop
  | nil : SameUpTo block [] []
  | cons (a : α) {s s' : List α} (rest : SameUpTo block s s') : SameUpTo block (a :: s) (a :: s')
  | swap {b b' s s' : List α} (old : block b) (new : block b') (rest : SameUpTo block s s') :
      SameUpTo block (b ++ s) (b' ++ s')

variable {block : List α → Prop}

lemma SameUpTo.refl (s : List α) : SameUpTo block s s := by
  induction s with
  | nil => exact .nil
  | cons a s ih => exact .cons a ih

lemma SameUpTo.append_left {s s' : List α} (h : SameUpTo block s s') (r : List α) :
    SameUpTo block (r ++ s) (r ++ s') := by
  induction r with
  | nil => exact h
  | cons a r ih => exact .cons a ih

/-- One block in the middle. -/
lemma SameUpTo.of_block {b b' : List α} (old : block b) (new : block b') (r s : List α) :
    SameUpTo block (r ++ (b ++ s)) (r ++ (b' ++ s)) :=
  SameUpTo.append_left (.swap old new (.refl s)) r

lemma SameUpTo.map {block' : List β → Prop} {f : α → β}
    (hf : ∀ b, block b → block' (b.map f)) {s s' : List α} (h : SameUpTo block s s') :
    SameUpTo block' (s.map f) (s'.map f) := by
  induction h with
  | nil => exact .nil
  | cons a _ ih => exact .cons (f a) ih
  | swap old new _ ih =>
    rw [List.map_append, List.map_append]
    exact .swap (hf _ old) (hf _ new) ih

/-- No block is empty and none has a letter of the word. -/
def Foreign (block : List α → Prop) (w : List α) : Prop :=
  ∀ b, block b → b ≠ [] ∧ ∀ a ∈ b, a ∉ w

lemma Foreign.tail {a : α} {w : List α} (h : Foreign block (a :: w)) : Foreign block w :=
  fun b hb => ⟨(h b hb).1, fun c hc hw => (h b hb).2 c hc (List.mem_cons_of_mem a hw)⟩

lemma Foreign.not_prefix {b w s : List α} (h : Foreign block w) (hb : block b) (hw : w ≠ []) :
    ¬ w <+: b ++ s := by
  obtain ⟨hne, hdisjoint⟩ := h b hb
  obtain ⟨c, w', rfl⟩ := List.exists_cons_of_ne_nil hw
  obtain ⟨a, b', rfl⟩ := List.exists_cons_of_ne_nil hne
  rintro ⟨t, ht⟩
  obtain rfl : c = a := (List.cons.inj ht).1
  exact hdisjoint c (List.mem_cons_self) List.mem_cons_self

lemma SameUpTo.prefix_iff {s s' : List α} (h : SameUpTo block s s') {w : List α}
    (hw : Foreign block w) : w <+: s ↔ w <+: s' := by
  induction h generalizing w with
  | nil => exact Iff.rfl
  | cons a _ ih =>
    cases w with
    | nil => simp
    | cons c w =>
      rw [List.cons_prefix_cons, List.cons_prefix_cons, ih hw.tail]
  | swap old new _ _ =>
    by_cases hne : w = []
    · simp [hne]
    · exact iff_of_false (hw.not_prefix old hne) (hw.not_prefix new hne)

/-- A word without letters of `b` does not begin inside of `b`. -/
lemma infix_append_iff {b w s : List α} (h : ∀ a ∈ b, a ∉ w) : w <:+: b ++ s ↔ w <:+: s := by
  induction b with
  | nil => rfl
  | cons a b ih =>
    have hrest := ih fun c hc => h c (List.mem_cons_of_mem a hc)
    rw [List.cons_append, List.infix_cons_iff, hrest]
    refine or_iff_right_of_imp fun hprefix => ?_
    cases w with
    | nil => exact List.nil_infix
    | cons c w =>
      obtain rfl : c = a := (List.cons_prefix_cons.mp hprefix).1
      exact absurd List.mem_cons_self (h c List.mem_cons_self)

theorem SameUpTo.infix_iff {s s' : List α} (h : SameUpTo block s s') {w : List α}
    (hw : Foreign block w) : w <:+: s ↔ w <:+: s' := by
  induction h with
  | nil => exact Iff.rfl
  | cons a rest ih =>
    rw [List.infix_cons_iff, List.infix_cons_iff, (SameUpTo.cons a rest).prefix_iff hw, ih]
  | swap old new _ ih =>
    rw [infix_append_iff (hw _ old).2, infix_append_iff (hw _ new).2, ih]

end HyperliquidApi.BlockRewriting
