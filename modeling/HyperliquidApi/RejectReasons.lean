import HyperliquidApi.OrderEvents

/-!
# The venue's verdicts

Rejections arrive as free text and are told apart by the wording.
-/
namespace HyperliquidApi

inductive ActionKind
  | resting
  | filled
  | success
  | error
  deriving DecidableEq

/-- The verdict on one action; `error` is the reason of a rejection. -/
structure ActionStatus where
  kind : ActionKind
  error : String
  deriving DecidableEq

structure GatewayError where
  kind : RejectKind
  reason : String
  deriving DecidableEq

def toLower (s : String) : String := String.ofList (s.toList.map Char.toLower)

/-- `hay.find(needle) != npos` -/
def contains (hay needle : String) : Bool :=
  hay.toList.tails.any fun suffix => needle.toList.isPrefixOf suffix

def classifyReject (reason : String) : RejectKind :=
  let r := toLower reason
  if contains r "post only" || contains r "immediately match" then .benignPostOnlyCross
  else if contains r "minimum value" || contains r "order must have" then .minNotional
  else if contains r "rate limit" || contains r "too many" || contains r "429" then .throttled
  else if contains r "reduce only" then .positionClosed
  else if contains r "invalid asset" || contains r "does not exist" || contains r "not allowed" ||
      contains r "open interest cap" || contains r "delisted" then .permanent
  else .hard

/-- A cancel rejection that means the order already left the book. -/
def isOrderGoneReason (reason : String) : Bool :=
  let r := toLower reason
  contains r "never placed" || contains r "already canceled" || contains r "or filled" ||
    contains r "unknown oid" || contains r "was already"

end HyperliquidApi
