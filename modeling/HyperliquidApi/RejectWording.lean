import HyperliquidApi.BlockRewriting
import HyperliquidApi.RejectReasons

/-!
# Numbers in the venue's verdicts

Reasons name assets, prices and sizes. All phrases that a reason is searched for are worded
but one: the digits of the status code for too many requests. A number that has them makes a
rejection a throttle, unless the phrases before it decide.
-/
namespace HyperliquidApi.RejectWording
open BlockRewriting

/-- `[0-9]+` or `[0-9]+\.[0-9]+` -/
inductive DecimalNumber : List Char → Prop
  | whole {ds : List Char} (nonempty : ds ≠ []) (digits : ∀ c ∈ ds, c.isDigit) : DecimalNumber ds
  | pointed {ds fs : List Char} (nonempty : ds ≠ [] ∧ fs ≠ []) (digits : ∀ c ∈ ds ++ fs, c.isDigit) :
      DecimalNumber (ds ++ '.' :: fs)

/-- Texts that differ only in the decimal numbers embedded in them. -/
def SameWording (reason reason' : String) : Prop :=
  SameUpTo DecimalNumber reason.toList reason'.toList

/-- No letter of a number. -/
def Worded (phrase : String) : Prop := ∀ c ∈ phrase.toList, ¬ c.isDigit ∧ c ≠ '.'

lemma DecimalNumber.letters {n : List Char} (h : DecimalNumber n) :
    n ≠ [] ∧ ∀ c ∈ n, c.isDigit ∨ c = '.' := by
  cases h with
  | whole nonempty digits => exact ⟨nonempty, fun c hc => .inl (digits c hc)⟩
  | @pointed ds fs _ digits =>
    refine ⟨by simp, fun c hc => ?_⟩
    rcases List.mem_append.mp hc with hd | hf
    · exact .inl (digits c (List.mem_append_left fs hd))
    · rcases List.mem_cons.mp hf with rfl | hf
      · exact .inr rfl
      · exact .inl (digits c (List.mem_append_right ds hf))

lemma Worded.foreign {phrase : String} (h : Worded phrase) :
    Foreign DecimalNumber phrase.toList := by
  intro n hn
  refine ⟨hn.letters.1, fun c hc hmem => ?_⟩
  rcases hn.letters.2 c hc with hdigit | hpoint
  · exact (h c hmem).1 hdigit
  · exact (h c hmem).2 hpoint

lemma toLower_letter {c : Char} (h : c.isDigit ∨ c = '.') : c.toLower = c := by
  rcases h with hdigit | rfl
  · have hval : c.val ≤ 57 := by
      rw [Char.isDigit, Bool.and_eq_true, decide_eq_true_eq, decide_eq_true_eq] at hdigit
      exact hdigit.2
    refine dif_neg fun hupper => ?_
    have hle : ('A' : Char).val ≤ 57 := UInt32.le_trans hupper.1 hval
    exact absurd hle (by decide)
  · rfl

lemma DecimalNumber.map_toLower {n : List Char} (h : DecimalNumber n) : n.map Char.toLower = n := by
  rw [List.map_congr_left fun c hc => toLower_letter (h.letters.2 c hc), List.map_id']

lemma SameWording.lower {reason reason' : String} (h : SameWording reason reason') :
    SameWording (toLower reason) (toLower reason') := by
  unfold SameWording toLower
  rw [String.toList_ofList, String.toList_ofList]
  refine SameUpTo.map (fun n hn => ?_) h
  rw [hn.map_toLower]
  exact hn

lemma contains_iff {hay needle : String} :
    contains hay needle = true ↔ needle.toList <:+: hay.toList := by
  unfold contains
  simp only [List.any_eq_true, List.mem_tails, List.isPrefixOf_iff_prefix]
  rw [List.infix_iff_prefix_suffix]
  exact exists_congr fun t => and_comm

/-- A worded phrase is in both of the texts or in neither. -/
lemma SameWording.contains_eq {reason reason' : String} (h : SameWording reason reason')
    {phrase : String} (hw : Worded phrase) :
    contains (toLower reason') phrase = contains (toLower reason) phrase := by
  rw [Bool.eq_iff_iff, contains_iff, contains_iff]
  exact (h.lower.infix_iff hw.foreign).symm

/-- The phrases that decide before numbers are looked at. -/
def decidingPhrases : List String :=
  ["post only", "immediately match", "minimum value", "order must have", "rate limit", "too many"]

/-- The phrases that decide otherwise. -/
def otherPhrases : List String :=
  ["reduce only", "invalid asset", "does not exist", "not allowed", "open interest cap", "delisted",
    "never placed", "already canceled", "or filled", "unknown oid", "was already"]

lemma worded_phrases : ∀ phrase ∈ decidingPhrases ++ otherPhrases, Worded phrase := by
  simp [decidingPhrases, otherPhrases, Worded]

def Decided (reason : String) : Prop := ∃ phrase ∈ decidingPhrases, contains (toLower reason) phrase

/-- The tests in front of the number. -/
def decidedKind (r : String) : RejectKind :=
  if contains r "post only" || contains r "immediately match" then .benignPostOnlyCross
  else if contains r "minimum value" || contains r "order must have" then .minNotional
  else .throttled

/-- The tests behind the number. -/
def undecidedKind (r : String) : RejectKind :=
  if contains r "reduce only" then .positionClosed
  else if contains r "invalid asset" || contains r "does not exist" || contains r "not allowed" ||
      contains r "open interest cap" || contains r "delisted" then .permanent
  else .hard

lemma undecidedKind_ne (r : String) : undecidedKind r ≠ .throttled := by
  unfold undecidedKind
  split_ifs <;> simp

lemma classifyReject_of_decided {reason : String} (h : Decided reason) :
    classifyReject reason = decidedKind (toLower reason) := by
  obtain ⟨phrase, hmem, hphrase⟩ := h
  simp only [decidingPhrases, List.mem_cons, List.not_mem_nil, or_false] at hmem
  unfold classifyReject decidedKind
  rcases hmem with rfl | rfl | rfl | rfl | rfl | rfl <;> simp [hphrase]

lemma classifyReject_of_undecided {reason : String} (h : ¬ Decided reason) :
    classifyReject reason =
      if contains (toLower reason) "429" then .throttled else undecidedKind (toLower reason) := by
  have hno : ∀ phrase ∈ decidingPhrases, contains (toLower reason) phrase = false := by
    intro phrase hmem
    by_contra hfound
    exact h ⟨phrase, hmem, by simpa using hfound⟩
  simp only [decidingPhrases, List.mem_cons, List.not_mem_nil, or_false, forall_eq_or_imp,
    forall_eq] at hno
  obtain ⟨h₁, h₂, h₃, h₄, h₅, h₆⟩ := hno
  unfold classifyReject undecidedKind
  simp [h₁, h₂, h₃, h₄, h₅, h₆]

section
variable {reason reason' : String} (h : SameWording reason reason')
include h

lemma SameWording.deciding_eq : ∀ phrase ∈ decidingPhrases,
    contains (toLower reason') phrase = contains (toLower reason) phrase :=
  fun phrase hmem => h.contains_eq (worded_phrases phrase (List.mem_append_left _ hmem))

lemma SameWording.other_eq : ∀ phrase ∈ otherPhrases,
    contains (toLower reason') phrase = contains (toLower reason) phrase :=
  fun phrase hmem => h.contains_eq (worded_phrases phrase (List.mem_append_right _ hmem))

lemma SameWording.decided_iff : Decided reason' ↔ Decided reason := by
  refine exists_congr fun phrase => and_congr_right fun hmem => ?_
  rw [h.deciding_eq phrase hmem]

lemma SameWording.decidedKind_eq :
    decidedKind (toLower reason') = decidedKind (toLower reason) := by
  have hsame := h.deciding_eq
  simp only [decidingPhrases, List.forall_mem_cons] at hsame
  simp only [decidedKind, hsame]

lemma SameWording.undecidedKind_eq :
    undecidedKind (toLower reason') = undecidedKind (toLower reason) := by
  have hsame := h.other_eq
  simp only [otherPhrases, List.forall_mem_cons] at hsame
  simp only [undecidedKind, hsame]

/-- Whether an order is gone is told by the wording alone. -/
theorem SameWording.isOrderGoneReason_eq : isOrderGoneReason reason' = isOrderGoneReason reason := by
  have hsame := h.other_eq
  simp only [otherPhrases, List.forall_mem_cons] at hsame
  simp only [isOrderGoneReason, hsame]

/-- Reasons of the same wording are classified alike unless the status code for too many
requests is among the digits of one of them only, and nothing has decided before. -/
theorem classification_agrees_iff :
    (classifyReject reason = classifyReject reason' ∧
      isOrderGoneReason reason = isOrderGoneReason reason') ↔
    (Decided reason ∨ contains (toLower reason) "429" = contains (toLower reason') "429") := by
  rw [h.isOrderGoneReason_eq]
  simp only [and_true]
  by_cases hdecided : Decided reason
  · refine iff_of_true ?_ (.inl hdecided)
    rw [classifyReject_of_decided hdecided, classifyReject_of_decided (h.decided_iff.mpr hdecided),
      h.decidedKind_eq]
  · rw [classifyReject_of_undecided hdecided,
      classifyReject_of_undecided (mt h.decided_iff.mp hdecided), h.undecidedKind_eq]
    have hne := undecidedKind_ne (toLower reason)
    simp only [hdecided, false_or]
    cases contains (toLower reason) "429" <;> cases contains (toLower reason') "429"
    · simp
    · simp [hne]
    · simp [hne.symm]
    · simp

end

def positionGone (number : String) : String :=
  "Reduce only order would increase position. asset=" ++ number

lemma sameWording_positionGone {number number' : String} (old : DecimalNumber number.toList)
    (new : DecimalNumber number'.toList) :
    SameWording (positionGone number) (positionGone number') := by
  unfold SameWording positionGone
  rw [String.toList_append, String.toList_append]
  exact SameUpTo.append_left (by simpa using SameUpTo.of_block old new [] []) _

theorem classification_agrees_iff_two_assets :
    (classifyReject (positionGone "7") = classifyReject (positionGone "1042") ∧
      isOrderGoneReason (positionGone "7") = isOrderGoneReason (positionGone "1042")) ↔
    (Decided (positionGone "7") ∨ contains (toLower (positionGone "7")) "429" =
      contains (toLower (positionGone "1042")) "429") :=
  classification_agrees_iff
    (sameWording_positionGone (.whole (by simp) (by simp)) (.whole (by simp) (by simp)))

/-- The position of asset 430 is gone, that of asset 429 is throttled. -/
theorem asset_id_throttles :
    SameWording (positionGone "430") (positionGone "429") ∧
      classifyReject (positionGone "430") = .positionClosed ∧
      classifyReject (positionGone "429") = .throttled := by
  refine ⟨?_, by decide +kernel, by decide +kernel⟩
  exact sameWording_positionGone (.whole (by simp) (by simp)) (.whole (by simp) (by simp))

end HyperliquidApi.RejectWording
