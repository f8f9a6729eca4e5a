import WebAcl.Throttle

/-! # Events

What happens while a list is drafted and built, for whoever keeps a log. -/

namespace WebAcl

/-- What kind of name a warning is about. -/
inductive NameKind where
  | acl
  | metric
  | rule
  deriving DecidableEq

/-- The word for a kind of name. -/
def NameKind.label : NameKind → String
  | .acl => "acl"
  | .metric => "metric"
  | .rule => "rule"

/-- Something worth a line in a log. -/
inductive Event where
  /-- A named throttle had no limit and was left out. -/
  | limitMissing (preset : Preset) (acl : String)
  /-- A response body took the place of another one. -/
  | bodyReplaced (acl key : String)
  /-- A name does not fit its alphabet. -/
  | nameDoubtful (acl : String) (kind : NameKind) (value : String)
  /-- An IP set was added to a template. -/
  | ipSetRecorded (logicalId : String) (addresses : Nat)
  /-- A list was built. -/
  | aclBuilt (acl : String) (countRules blockRules responseBodies : Nat)
  deriving DecidableEq

/-- How much an event matters. -/
inductive Level where
  | warning
  | debug
  deriving DecidableEq

/-- The word for a level. -/
def Level.label : Level → String
  | .warning => "WARN"
  | .debug => "DEBUG"

/-- A detail of an event: a text or a count. -/
inductive Detail where
  | text (s : String)
  | count (n : Nat)
  deriving DecidableEq

namespace Event

/-- How much the event matters. -/
def level : Event → Level
  | .limitMissing .. | .bodyReplaced .. | .nameDoubtful .. => .warning
  | .ipSetRecorded .. | .aclBuilt .. => .debug

/-- What the log says. -/
def message : Event → String
  | .limitMissing .. => "未设置 limit，跳过该限流规则"
  | .bodyReplaced .. => "自定义响应体已存在，将被覆盖"
  | .nameDoubtful .. => "名称不符合 WAF 字符约束，部署时可能被拒绝"
  | .ipSetRecorded .. => "登记 IP 集合"
  | .aclBuilt .. => "Web ACL 构建完成"

/-- The details of the event under their names. -/
def details : Event → List (String × Detail)
  | .limitMissing preset acl =>
    [("method", .text ("acl_builder." ++ preset.method)), ("acl", .text acl)]
  | .bodyReplaced acl key =>
    [("method", .text "acl_builder.with_custom_response_body"), ("acl", .text acl),
      ("key", .text key)]
  | .nameDoubtful acl kind value =>
    [("method", .text "acl_finalizer.finalize"), ("acl", .text acl), ("kind", .text kind.label),
      ("value", .text value)]
  | .ipSetRecorded logicalId addresses =>
    [("logical_id", .text logicalId), ("addresses", .count addresses)]
  | .aclBuilt acl countRules blockRules responseBodies =>
    [("acl", .text acl), ("count_rules", .count countRules), ("block_rules", .count blockRules),
      ("response_bodies", .count responseBodies)]

end Event

end WebAcl
