import WebAcl.ResponseBody
import WebAcl.Rule

/-! # Throttles

A throttle limits how many requests of one kind a client may send within five minutes. It looks at
known users or at anonymous ones, told apart by a request header, and counts by address or by
address and path. A throttle that only counts is a rehearsal; one that blocks answers with the
status code 429 and a response body.

* `Throttle.probe`, `Throttle.statement`, `Throttle.rule`: from the header to the rule.
* `Preset`: the eight throttles that have names of their own, and what follows from the names. -/

namespace WebAcl

/-- Whether the requests of interest carry the user header or lack it. -/
inductive HeaderCondition where
  | required
  | absent
  deriving DecidableEq

/-- By what requests are counted. -/
inductive RateKey where
  | ip
  | ipAndUriPath
  deriving DecidableEq

/-- The queue that a rule joins; counting rules come first in a list. -/
inductive Queue where
  | count
  | block
  deriving DecidableEq

/-- What a throttle does with too many requests: count them, or block them with a response body. -/
inductive ThrottleAction where
  | count
  | block (bodyKey : String)
  deriving DecidableEq

namespace ThrottleAction

/-- The queue of a throttle with this action. -/
def queue : ThrottleAction → Queue
  | .count => .count
  | .block _ => .block

/-- The verdict of a throttle with this action. -/
def verdict : ThrottleAction → Verdict
  | .count => .count
  | .block bodyKey => .block (some ⟨429, bodyKey⟩)

end ThrottleAction

namespace Throttle

/-- The length of a rate window in seconds. -/
def window : UInt32 := 300

/-- The header is there if its size is above zero; it is absent if its size is not even zero, so an
empty header counts as given, but not as that of a known user. -/
def probe (header : String) : HeaderCondition → Statement
  | .required => .sizeBound ⟨.greater, header, [⟨0, .none⟩], 0⟩
  | .absent => .not (.sizeBound ⟨.atLeast, header, [⟨0, .none⟩], 0⟩)

/-- The keys for counting by path and address; paths are compared by the digest of their lower-case
normal form. -/
def pathAndIpKeys : List CustomKey :=
  [.uriPath [⟨1, .lowercase⟩, ⟨2, .normalizePath⟩, ⟨3, .md5⟩], .ip]

/-- The rate for a limit and a key. -/
def rate (limit : UInt64) : RateKey → Rate
  | .ip => ⟨.ip, none, limit, window⟩
  | .ipAndUriPath => ⟨.customKeys, some pathAndIpKeys, limit, window⟩

/-- More than `limit` requests within the window from clients with or without the header. -/
def statement (limit : UInt64) (condition : HeaderCondition) (key : RateKey) (header : String) :
    Statement :=
  .rateBased (rate limit key) (probe header condition)

/-- The rule of a throttle. -/
def rule (name : String) (limit : UInt64) (condition : HeaderCondition) (key : RateKey)
    (action : ThrottleAction) (header : String) : Rule where
  name := name
  verdict := action.verdict
  statement := statement limit condition key header
  visibility := .sampled name

/-- What a client blocked by a limit is told. -/
def explanation (limit : UInt64) : String :=
  "Request rate is limited to " ++ Text.decimal limit.toNat ++ " requests in a " ++
    Text.decimal (window.toNat / 60) ++ " minute window."

end Throttle

/-- One of the eight named throttles: it blocks or counts, looks at known or anonymous users, and
goes by address or by address and path. -/
structure Preset where
  queue : Queue
  condition : HeaderCondition
  key : RateKey
  deriving DecidableEq

namespace Preset

/-- The four throttles of a queue: known users before anonymous ones, addresses before paths. -/
def ofQueue (queue : Queue) : List Preset :=
  [⟨queue, .required, .ip⟩, ⟨queue, .required, .ipAndUriPath⟩,
    ⟨queue, .absent, .ip⟩, ⟨queue, .absent, .ipAndUriPath⟩]

/-- The eight throttles in the order of a document: the blocking ones, then the counting ones. -/
def all : List Preset := ofQueue .block ++ ofQueue .count

/-- The field of a document that holds the limit. -/
def field (preset : Preset) : String :=
  (match preset.queue, preset.condition with
    | .block, .required => "digitrafficUserIp"
    | .block, .absent => "anonymousUserIp"
    | .count, .required => "countDigitrafficUserIp"
    | .count, .absent => "countAnonymousUserIp") ++
  (match preset.key with
    | .ip => ""
    | .ipAndUriPath => "AndUriPath")

/-- The name under which a missing limit is reported. -/
def method (preset : Preset) : String :=
  (match preset.queue with
    | .block => "with_throttle_"
    | .count => "with_count_") ++
  (match preset.condition with
    | .required => "digitraffic_user_ip"
    | .absent => "anonymous_user_ip") ++
  (match preset.key with
    | .ip => ""
    | .ipAndUriPath => "_and_uri_path")

/-- The name of the rule, up to the limit. -/
def stem (preset : Preset) : String :=
  (match preset.queue with
    | .block => "ThrottleRule"
    | .count => "CountRule") ++
  (match preset.key with
    | .ip => "With"
    | .ipAndUriPath => "IPQueryWith") ++
  (match preset.condition with
    | .required => "DigitrafficUser"
    | .absent => "AnonymousUser")

/-- The name of the rule; counting rules with different limits may stand side by side. -/
def ruleName (preset : Preset) (limit : UInt64) : String :=
  match preset.queue with
  | .block => preset.stem
  | .count => preset.stem ++ Text.decimal limit.toNat

/-- The key of the response body, up to the limit. -/
def bodyStem (preset : Preset) : String :=
  (match preset.key with
    | .ip => "IP_THROTTLE_"
    | .ipAndUriPath => "IP_PATH_THROTTLE_") ++
  (match preset.condition with
    | .required => "DIGITRAFFIC_USER_"
    | .absent => "ANONYMOUS_USER_")

/-- The key of the response body for a limit; rules with the same limit share it. -/
def bodyKey (preset : Preset) (limit : UInt64) : String :=
  preset.bodyStem ++ Text.decimal limit.toNat

/-- What the throttle does with too many requests. -/
def action (preset : Preset) (limit : UInt64) : ThrottleAction :=
  match preset.queue with
  | .block => .block (preset.bodyKey limit)
  | .count => .count

@[simp] theorem queue_action (preset : Preset) (limit : UInt64) :
    (preset.action limit).queue = preset.queue := by
  unfold action
  split <;> next h => exact h.symm

/-- The response body of a blocking throttle with its key. -/
def body? (preset : Preset) (limit : UInt64) : Option (String × ResponseBody) :=
  match preset.queue with
  | .block => some (preset.bodyKey limit, .text (Throttle.explanation limit))
  | .count => none

/-- The rule for a limit. -/
def rule (preset : Preset) (limit : UInt64) (header : String) : Rule :=
  Throttle.rule (preset.ruleName limit) limit preset.condition preset.key (preset.action limit)
    header

end Preset

end WebAcl
