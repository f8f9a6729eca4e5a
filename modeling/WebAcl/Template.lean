import WebAcl.Build
import WebAcl.Document.Json
import WebAcl.Document.MessagePack

/-! # Templates

A template is an access list with the IP sets that its rules refer to. It is laid out as a document,
with the members in a fixed order, and rendered from there.

* `Template.document`: the layout.
* `Template.toJson`, `Template.toMessagePack`: the renderings. -/

namespace WebAcl

/-- An access list with its IP sets. -/
structure Template where
  ipSets : Register
  acl : Acl

/-! ### Layout of the parts -/

/-- The members `sampledRequestsEnabled`, `cloudWatchMetricsEnabled` and `metricName`. -/
def Visibility.document (visibility : Visibility) : Document :=
  .object [("sampledRequestsEnabled", .bool visibility.sampledRequests),
    ("cloudWatchMetricsEnabled", .bool visibility.metrics),
    ("metricName", .text visibility.metricName)]

/-- A configuration with all its parts. -/
def Config.document (config : Config) : Document :=
  .object [("name", .text config.name), ("scope", .text config.scope.label),
    ("ipAddressVersion", .text config.addressVersion.label),
    ("userHeader", .text config.userHeader), ("visibility", config.visibility.document)]

/-- A response body with its media type. -/
def ResponseBody.document (body : ResponseBody) : Document :=
  .object [("content", .text body.content), ("contentType", .text body.contentType.label)]

/-- The bodies by key, in the order of the keys. -/
def bodiesDocument (bodies : KeyTable ResponseBody) : Document :=
  .object (bodies.entries.map fun (key, body) => (key, body.document))

/-- An IP set as it was asked for. -/
def IpSetSpec.document (spec : IpSetSpec) : Document :=
  .object [("logicalId", .text spec.logicalId), ("scope", .text spec.scope.label),
    ("ipAddressVersion", .text spec.addressVersion.label), ("addresses", .texts spec.addresses)]

/-- The word for a comparison. -/
def Comparison.label : Comparison → String
  | .greater => "GT"
  | .atLeast => "GE"

/-- The word for a transformation. -/
def Transformation.label : Transformation → String
  | .none => "NONE"
  | .lowercase => "LOWERCASE"
  | .normalizePath => "NORMALIZE_PATH"
  | .md5 => "MD5"

/-- A transformation with its place. -/
def TransformationStep.document (step : TransformationStep) : Document :=
  .object [("priority", .number step.priority.toUInt64), ("type", .text step.kind.label)]

/-- The transformations in order. -/
def transformationsDocument (steps : List TransformationStep) : Document :=
  .list (steps.map (·.document))

/-- A managed group less the excluded rules. -/
def GroupReference.document (group : GroupReference) : Document :=
  .object [("vendorName", .text group.vendor), ("name", .text group.name),
    ("excludedRules", .list (group.excluded.map fun name => .single "name" (.text name)))]

/-- A bound on the size of a header. -/
def SizeBound.document (bound : SizeBound) : Document :=
  .object [("comparisonOperator", .text bound.comparison.label),
    ("fieldToMatch", .single "singleHeader" (.single "Name" (.text bound.header))),
    ("textTransformations", transformationsDocument bound.transformations),
    ("size", .number bound.size)]

/-- The word for an aggregation. -/
def Aggregation.label : Aggregation → String
  | .ip => "IP"
  | .customKeys => "CUSTOM_KEYS"

/-- A key by which requests are counted. -/
def CustomKey.document : CustomKey → Document
  | .uriPath steps =>
    .single "uriPath" (.single "textTransformations" (transformationsDocument steps))
  | .ip => .single "ip" (.object [])

/-- The members of a rate; the custom keys only if there are any to speak of. -/
def Rate.members (rate : Rate) : List (String × Document) :=
  ("aggregateKeyType", .text rate.aggregation.label) ::
    (match rate.customKeys with
      | some keys => [("customKeys", .list (keys.map (·.document)))]
      | none => []) ++
    [("limit", .number rate.limit), ("evaluationWindowSec", .number rate.window.toUInt64)]

/-- A statement under the name of its kind. -/
def Statement.document : Statement → Document
  | .managedGroup group => .single "managedRuleGroupStatement" group.document
  | .ipSet arn => .single "ipSetReferenceStatement" (.single "arn" (.text arn))
  | .sizeBound bound => .single "sizeConstraintStatement" bound.document
  | .not statement => .single "notStatement" (.single "statement" statement.document)
  | .rateBased rate scopeDown =>
    .single "rateBasedStatement"
      (.object (rate.members ++ [("scopeDownStatement", scopeDown.document)]))

/-- A status code with the key of a response body. -/
def CustomResponse.document (response : CustomResponse) : Document :=
  .object [("responseCode", .number response.code.toUInt64),
    ("customResponseBodyKey", .text response.bodyKey)]

/-- The member that gives the verdict: an action, or nothing to override a group's own. -/
def Verdict.member : Verdict → String × Document
  | .allow => ("action", .single "allow" (.object []))
  | .block none => ("action", .single "block" (.object []))
  | .block (some response) =>
    ("action", .single "block" (.single "customResponse" response.document))
  | .count => ("action", .single "count" (.object []))
  | .group => ("overrideAction", .single "none" (.object []))

/-- The members of a rule. -/
def Rule.members (rule : Rule) : List (String × Document) :=
  [("name", .text rule.name), rule.verdict.member, ("statement", rule.statement.document),
    ("visibilityConfig", rule.visibility.document)]

/-- A rule that has no priority yet. -/
def Rule.document (rule : Rule) : Document := .object rule.members

/-- A rule behind its priority. -/
def RankedRule.document (ranked : RankedRule) : Document :=
  .object (("priority", .number ranked.priority.toUInt64) :: ranked.rule.members)

/-- An access list; what no rule stops is let through. -/
def Acl.document (acl : Acl) : Document :=
  .object [("name", .text acl.name), ("scope", .text acl.scope.label),
    ("defaultAction", .single "allow" (.object [])),
    ("visibilityConfig", acl.visibility.document),
    ("rules", .list (acl.rules.map (·.document))),
    ("customResponseBodies", bodiesDocument acl.bodies)]

/-! ### Renderings -/

namespace Template

/-- The layout of a template. -/
def document (template : Template) : Document :=
  .object [("ipSets", .list (template.ipSets.map (·.document))),
    ("webAcl", template.acl.document)]

/-- The template as JSON text, with or without lines. -/
def toJson (template : Template) (lines : Bool) : String := template.document.toJson lines

/-- The template in MessagePack. -/
def toMessagePack (template : Template) : List UInt8 := template.document.packed

end Template

end WebAcl
