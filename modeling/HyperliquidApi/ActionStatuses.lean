import HyperliquidApi.Json
import HyperliquidApi.RejectReasons

/-!
# Replies to actions

`parseStatuses` reads the verdict on a single action out of the reply. The JSON library's `dump` is a
parameter, and so are `stod` and the conversion to `unsigned long long`, the two of `Library`.
-/
namespace HyperliquidApi.ActionStatuses
open Json

/-- The verdict with the numbers of the order. -/
structure ParsedStatus extends ActionStatus where
  oid : ℕ
  filledSz : ℚ
  avgPx : ℚ

section
variable (dump : Json → String) (stod : String → Option ℚ) (asULL : Json → Option ℕ)

def success : ParsedStatus := ⟨⟨.success, ""⟩, 0, 0, 0⟩

def rejected (error : String) : ParsedStatus := ⟨⟨.error, error⟩, 0, 0, 0⟩

/-- The first entry of the list of statuses. -/
def parseEntry (first : Json) : Except JsonError ParsedStatus :=
  match first.asString with
  | some s =>
    if s = "success" ∨ s = "waitingForFill" ∨ s = "waitingForTrigger" then .ok success
    else .ok (rejected s)
  | none =>
    match first.find "resting", first.find "filled" with
    | some resting, _ => do
      let oid ← resting.value asULL "oid" 0
      return ⟨⟨.resting, ""⟩, oid, 0, 0⟩
    | none, some filled => do
      let oid ← filled.value asULL "oid" 0
      return ⟨⟨.filled, ""⟩, oid, filled.readNum stod "totalSz", filled.readNum stod "avgPx"⟩
    | none, none => do
      let error ← first.value asString "error" (dump first)
      return rejected error

def parseStatuses (response : Json) : Except JsonError ParsedStatus :=
  if (response.find "status").bind asString ≠ some "ok" then
    match response.find "response" with
    | some body => .ok (rejected (body.asString.getD (dump body)))
    | none => .ok (rejected (dump response))
  else do
    let data ← (← response.atKey "response").value some "data" (.object [])
    let statuses ← data.value some "statuses" (.array [])
    -- an empty list still means that the action was accepted
    if statuses.empty then return success
    parseEntry dump stod asULL (← statuses.front)

/-- `parseStatuses` from the body of an accepted request on. -/
def parseBody (body : Json) : Except JsonError ParsedStatus := do
  let data ← body.value some "data" (.object [])
  let statuses ← data.value some "statuses" (.array [])
  if statuses.empty then return success
  parseEntry dump stod asULL (← statuses.front)

end

/-- An entry that says the action was accepted. -/
def AcceptedEntry (first : Json) : Prop :=
  first.asString = some "success" ∨ first.asString = some "waitingForFill" ∨
    first.asString = some "waitingForTrigger" ∨
    first.find "resting" ≠ none ∨ first.find "filled" ≠ none

/-- `data.statuses` of the body. -/
def statusesOf (body : Json) : Option Json := (body.find "data").bind (·.find "statuses")

/-- There are no statuses, or the first of them accepts. -/
def AcceptedBody (body : Json) : Prop :=
  ∀ statuses, statusesOf body = some statuses →
    statuses.empty = true ∨ ∃ first, statuses.front = .ok first ∧ AcceptedEntry first

def Accepted (response : Json) : Prop :=
  response.find "status" = some (.string "ok") ∧
    ∀ body, response.find "response" = some body → AcceptedBody body

/-- The member of an entry that decides is an object where one is read, with an id or a text of
the expected type. -/
def EntryReadable (asULL : Json → Option ℕ) (first : Json) : Prop :=
  first.asString ≠ none ∨
    match first.find "resting", first.find "filled" with
    | some resting, _ => resting.Readable asULL "oid"
    | none, some filled => filled.Readable asULL "oid"
    | none, none => first.Readable asString "error"

/-- The objects are there as far as the list of statuses, and its first entry is readable. -/
def BodyReadable (asULL : Json → Option ℕ) (body : Json) : Prop :=
  body.isObject = true ∧
    ∀ data, body.find "data" = some data → data.isObject = true ∧
      ∀ statuses, data.find "statuses" = some statuses → statuses.empty = false →
        ∃ first, statuses.front = .ok first ∧ EntryReadable asULL first

/-- What matters only below a status of "ok". -/
def ReplyReadable (asULL : Json → Option ℕ) (response : Json) : Prop :=
  response.find "status" = some (.string "ok") →
    ∃ body, response.find "response" = some body ∧ BodyReadable asULL body

/-- The reply becomes a verdict, which is an acceptance for accepted actions only. -/
def Classified (parsed : Except JsonError ParsedStatus) (response : Json) : Prop :=
  ∃ status, parsed = .ok status ∧ (status.kind ≠ .error ↔ Accepted response)

section
variable (dump : Json → String) (stod : String → Option ℚ) (asULL : Json → Option ℕ)

lemma asString_ok_iff {found : Option Json} :
    found.bind asString = some "ok" ↔ found = some (.string "ok") := by
  constructor
  · intro h
    obtain ⟨json, rfl, hjson⟩ := Option.bind_eq_some_iff.mp h
    rw [asString_eq hjson]
  · rintro rfl
    rfl

/-- What follows a reader and cannot throw. -/
lemma map_returns_iff {ε α β : Type} {x : Except ε α} {f : α → β} :
    (∃ b, (do return f (← x)) = Except.ok b) ↔ ∃ a, x = .ok a := by
  cases x with
  | error e => exact iff_of_false (by rintro ⟨_, h⟩; cases h) (by rintro ⟨_, h⟩; cases h)
  | ok a => exact iff_of_true ⟨f a, rfl⟩ ⟨a, rfl⟩

lemma parseEntry_returns_iff (first : Json) :
    (∃ status, parseEntry dump stod asULL first = .ok status) ↔ EntryReadable asULL first := by
  unfold parseEntry EntryReadable
  cases hstring : first.asString with
  | some s =>
    refine iff_of_true ?_ (.inl (by simp))
    dsimp only
    split_ifs
    · exact ⟨_, rfl⟩
    · exact ⟨_, rfl⟩
  | none =>
    simp only [ne_eq, not_true_eq_false, false_or]
    cases first.find "resting" with
    | some resting => exact map_returns_iff.trans (value_ok_iff asULL resting "oid" 0)
    | none =>
      cases first.find "filled" with
      | some filled => exact map_returns_iff.trans (value_ok_iff asULL filled "oid" 0)
      | none => exact map_returns_iff.trans (value_ok_iff asString first "error" (dump first))

lemma parseEntry_accepted {first : Json} {status : ParsedStatus}
    (h : parseEntry dump stod asULL first = .ok status) :
    status.kind ≠ .error ↔ AcceptedEntry first := by
  unfold parseEntry at h
  unfold AcceptedEntry
  cases hstring : first.asString with
  | some s =>
    have hmembers : ∀ key, first.find key = none := by
      rw [asString_eq hstring]
      exact fun key => rfl
    simp only [hstring, Option.some.injEq] at h ⊢
    split_ifs at h with haccepted
    · obtain rfl := Except.ok.inj h
      refine iff_of_true (by simp [success]) ?_
      rcases haccepted with hs | hs | hs
      · exact .inl hs
      · exact .inr (.inl hs)
      · exact .inr (.inr (.inl hs))
    · obtain rfl := Except.ok.inj h
      rw [hmembers, hmembers]
      refine iff_of_false (by simp [rejected]) ?_
      rintro (hs | hs | hs | hs | hs)
      · exact haccepted (.inl hs)
      · exact haccepted (.inr (.inl hs))
      · exact haccepted (.inr (.inr hs))
      · exact hs rfl
      · exact hs rfl
  | none =>
    cases hresting : first.find "resting" with
    | some resting =>
      simp only [hstring, hresting] at h
      obtain ⟨oid, _, h⟩ := bind_ok h
      obtain rfl := Except.ok.inj h
      exact iff_of_true (by simp) (by simp)
    | none =>
      cases hfilled : first.find "filled" with
      | some filled =>
        simp only [hstring, hresting, hfilled] at h
        obtain ⟨oid, _, h⟩ := bind_ok h
        obtain rfl := Except.ok.inj h
        exact iff_of_true (by simp) (by simp)
      | none =>
        simp only [hstring, hresting, hfilled] at h
        obtain ⟨error, _, h⟩ := bind_ok h
        obtain rfl := Except.ok.inj h
        exact iff_of_false (by simp [rejected]) (by simp)

/-- A status other than "ok" is a rejection, whatever else the reply has. -/
lemma parseStatuses_not_ok {response : Json} (h : response.find "status" ≠ some (.string "ok")) :
    ∃ error, parseStatuses dump stod asULL response = .ok (rejected error) := by
  unfold parseStatuses
  rw [if_pos (asString_ok_iff.not.mpr h)]
  cases response.find "response" with
  | some body => exact ⟨_, rfl⟩
  | none => exact ⟨_, rfl⟩

lemma isObject_of_find {json member : Json} {key : String} (h : json.find key = some member) :
    json.isObject = true := by
  cases json with
  | object members => rfl
  | _ => cases h

lemma parseStatuses_ok {response : Json} (h : response.find "status" = some (.string "ok")) :
    parseStatuses dump stod asULL response =
      response.atKey "response" >>= parseBody dump stod asULL := by
  unfold parseStatuses
  rw [if_neg (not_not.mpr (asString_ok_iff.mpr h))]
  rfl

lemma value_some {json : Json} (h : json.isObject = true) (key : String) (default : Json) :
    json.value some key default = .ok ((json.find key).getD default) := by
  unfold Json.value
  rw [if_pos h]
  cases json.find key with
  | none => rfl
  | some member => rfl

/-- Where the objects are there, what the statuses are decides. -/
lemma parseBody_eq {body : Json} (hbody : body.isObject = true)
    (hdata : ∀ data, body.find "data" = some data → data.isObject = true) :
    parseBody dump stod asULL body =
      match statusesOf body with
      | none => .ok success
      | some statuses =>
        if statuses.empty then .ok success
        else statuses.front >>= parseEntry dump stod asULL := by
  unfold parseBody statusesOf
  rw [value_some hbody]
  cases hfound : body.find "data" with
  | none => rfl
  | some data =>
    show (data.value some "statuses" (.array []) >>= _) = _
    rw [value_some (hdata data hfound), Option.bind_some]
    cases data.find "statuses" with
    | none => rfl
    | some statuses => rfl

lemma bodyReadable_iff {body : Json} (hbody : body.isObject = true)
    (hdata : ∀ data, body.find "data" = some data → data.isObject = true) :
    BodyReadable asULL body ↔
      ∀ statuses, statusesOf body = some statuses → statuses.empty = false →
        ∃ first, statuses.front = .ok first ∧ EntryReadable asULL first := by
  constructor
  · intro h statuses hstatuses
    obtain ⟨data, hfound, hmember⟩ := Option.bind_eq_some_iff.mp hstatuses
    exact (h.2 data hfound).2 statuses hmember
  · intro h
    refine ⟨hbody, ?_⟩
    intro data hfound
    refine ⟨hdata data hfound, ?_⟩
    intro statuses hmember
    exact h statuses (Option.bind_eq_some_iff.mpr ⟨data, hfound, hmember⟩)

lemma value_not_object {json : Json} (h : ¬ json.isObject = true) (key : String) (default : Json) :
    json.value some key default = .error .notObject := if_neg h

/-- The list of statuses is accepted or not by its first entry, where that can be read. -/
lemma parseStatusList_iff (statuses : Json) :
    (∃ status, (if statuses.empty then .ok success
        else statuses.front >>= parseEntry dump stod asULL) = .ok status ∧
      (status.kind ≠ .error ↔
        statuses.empty = true ∨ ∃ first, statuses.front = .ok first ∧ AcceptedEntry first)) ↔
      (statuses.empty = false → ∃ first, statuses.front = .ok first ∧ EntryReadable asULL first) := by
  cases hempty : statuses.empty with
  | true => exact iff_of_true ⟨success, rfl, iff_of_true (by simp [success]) (.inl rfl)⟩ (by simp)
  | false =>
    simp only [Bool.false_eq_true, if_false, false_or, forall_const]
    cases hfront : statuses.front with
    | error e => exact iff_of_false (by rintro ⟨_, h, _⟩; cases h) (by rintro ⟨_, h, _⟩; cases h)
    | ok first =>
      simp only [Except.ok.injEq, exists_eq_left']
      rw [← parseEntry_returns_iff dump stod asULL first]
      constructor
      · rintro ⟨status, h, _⟩
        exact ⟨status, h⟩
      · rintro ⟨status, h⟩
        exact ⟨status, h, parseEntry_accepted dump stod asULL h⟩

lemma parseBody_classified_iff (body : Json) :
    (∃ status, parseBody dump stod asULL body = .ok status ∧
      (status.kind ≠ .error ↔ AcceptedBody body)) ↔ BodyReadable asULL body := by
  by_cases hbody : body.isObject = true
  · by_cases hdata : ∀ data, body.find "data" = some data → data.isObject = true
    · rw [parseBody_eq dump stod asULL hbody hdata, bodyReadable_iff asULL hbody hdata]
      unfold AcceptedBody
      cases hstatuses : statusesOf body with
      | none => exact iff_of_true ⟨success, rfl, by simp [success]⟩ (by simp)
      | some statuses =>
        simp only [Option.some.injEq, forall_eq']
        exact parseStatusList_iff dump stod asULL statuses
    · refine iff_of_false ?_ fun h => hdata fun data hfound => (h.2 data hfound).1
      push Not at hdata
      obtain ⟨data, hfound, hscalar⟩ := hdata
      rintro ⟨status, h, _⟩
      unfold parseBody at h
      rw [value_some hbody, hfound] at h
      obtain ⟨found, hsame, h⟩ := bind_ok h
      obtain rfl := Except.ok.inj hsame
      obtain ⟨statuses, hstatuses, _⟩ := bind_ok h
      rw [Option.getD_some, value_not_object hscalar] at hstatuses
      cases hstatuses
  · refine iff_of_false ?_ fun h => hbody h.1
    rintro ⟨status, h, _⟩
    obtain ⟨data, hdata, _⟩ := bind_ok h
    rw [value_not_object hbody] at hdata
    cases hdata

/-- A reply is classified without an exception exactly when its objects are where they are looked
for and the first entry is readable. -/
theorem parseStatuses_classified_iff (response : Json) :
    Classified (parseStatuses dump stod asULL response) response ↔
      ReplyReadable asULL response := by
  unfold Classified ReplyReadable Accepted
  by_cases hok : response.find "status" = some (.string "ok")
  · rw [parseStatuses_ok dump stod asULL hok]
    have hobject := isObject_of_find hok
    unfold Json.atKey
    rw [if_pos hobject]
    simp only [hok, true_and, forall_const]
    cases response.find "response" with
    | none => exact iff_of_false (by rintro ⟨_, h, _⟩; cases h) (by rintro ⟨_, h, _⟩; cases h)
    | some body =>
      simp only [Option.some.injEq, forall_eq', exists_eq_left']
      exact parseBody_classified_iff dump stod asULL body
  · obtain ⟨error, hparsed⟩ := parseStatuses_not_ok dump stod asULL hok
    exact iff_of_true ⟨_, hparsed, iff_of_false (by simp [rejected]) fun h => hok h.1⟩
      fun h => absurd h hok

end

/-- A status of "ok" alone is thrown upon. -/
theorem bare_ok_throws :
    parseStatuses (fun _ => "") (fun _ => none) asUInt64 (.object [("status", .string "ok")]) =
        .error .outOfRange ∧
      ¬ Classified (parseStatuses (fun _ => "") (fun _ => none) asUInt64
        (.object [("status", .string "ok")])) (.object [("status", .string "ok")]) := by
  have hthrown : parseStatuses (fun _ => "") (fun _ => none) asUInt64
      (.object [("status", .string "ok")]) = .error .outOfRange := rfl
  refine ⟨hthrown, ?_⟩
  rintro ⟨status, h, _⟩
  rw [hthrown] at h
  cases h

end HyperliquidApi.ActionStatuses
