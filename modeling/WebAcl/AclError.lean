import WebAcl.Json.Fault

/-! # Errors

Why no access list comes about: the rules that were asked for do not go together, an IP set cannot
be created, or a document cannot be read.

* `AclError.isConfiguration`: whether the rules themselves are at fault.
* `AclError.message`: the error in words. -/

namespace WebAcl

/-- Why a file cannot be read or written. -/
inductive FileFault where
  | notFound
  | notDirectory
  | isDirectory
  | nameTooLong
  /-- The bytes are not UTF-8. -/
  | notText
  /-- Another refusal of the operating system, with its number. -/
  | refused (reason : String) (number : Nat)
  deriving DecidableEq

/-- The refusal of the operating system in words. -/
def FileFault.message : FileFault → String
  | .notFound => "No such file or directory (os error 2)"
  | .notDirectory => "Not a directory (os error 20)"
  | .isDirectory => "Is a directory (os error 21)"
  | .nameTooLong => "File name too long (os error 36)"
  | .notText => "stream did not contain valid UTF-8"
  | .refused reason number => reason ++ " (os error " ++ Text.decimal number ++ ")"

/-- Why no access list comes about. -/
inductive AclError where
  /-- There is no rule. -/
  | emptyRuleSet (acl : String)
  /-- Rules share a name. -/
  | duplicateRuleName (acl : String) (names : List String)
  /-- A limit is not positive. -/
  | invalidRateLimit (rule : String) (limit : UInt64)
  /-- A rule names a response body that nobody registered. -/
  | missingResponseBody (rule key : String)
  /-- An IP set cannot be created. -/
  | provision (reason : String)
  /-- A rule refers to an IP set that nobody asked for. -/
  | unresolvedIpSet (reference : String)
  /-- A document cannot be read. -/
  | document (fault : Json.Fault)
  /-- A file cannot be read or written. -/
  | file (fault : FileFault)
  deriving DecidableEq

namespace AclError

/-- Whether the rules that were asked for do not go together. -/
def isConfiguration : AclError → Bool
  | .emptyRuleSet _ | .duplicateRuleName _ _ | .invalidRateLimit _ _
  | .missingResponseBody _ _ => true
  | _ => false

/-- The error in words; that of a document does not say where the document is at fault. -/
def message : AclError → String
  | .emptyRuleSet acl => "Web ACL " ++ acl ++ " 未定义任何规则"
  | .duplicateRuleName acl names =>
    "Web ACL " ++ acl ++ " 存在重名规则：" ++ Text.quotedList names
  | .invalidRateLimit rule limit =>
    "规则 " ++ rule ++ " 的速率限制无效：" ++ Text.decimal limit.toNat ++ "（必须大于 0）"
  | .missingResponseBody rule key =>
    "规则 " ++ rule ++ " 引用了未注册的自定义响应体：" ++ key
  | .provision reason => "IP 集合创建失败：" ++ reason
  | .unresolvedIpSet reference => "无法解析的 IP 集合引用：" ++ reference
  | .document fault => "JSON解析失败：" ++ fault.message
  | .file fault => "IO操作失败：" ++ fault.message

/-- The error behind the error, in words, again without a place in the document. -/
def cause? : AclError → Option String
  | .document fault => some fault.message
  | .file fault => some fault.message
  | _ => none

end AclError

end WebAcl
