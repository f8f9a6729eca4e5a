import WebAcl.Intents
import WebAcl.Json.Shape
import WebAcl.Json.Value

/-! # Reading intents

The JSON form of configurations, response bodies, selections, limits and of the document that holds
them all.

* `Intents.ofJson`: the intents of a text, or the fault of the text. -/

namespace WebAcl

open Json

/-! ### Words -/

/-- A scope by its word. -/
def Scope.read : Reader Scope := Reader.variant Scope.labelled

/-- An address family by its word. -/
def AddressVersion.read : Reader AddressVersion := Reader.variant AddressVersion.labelled

/-- A media type by its word. -/
def ContentType.read : Reader ContentType := Reader.variant ContentType.labelled

/-- A managed group by its short name. -/
def ManagedGroup.read : Reader ManagedGroup := Reader.variant ManagedGroup.labelled

/-! ### Configurations -/

/-- All three fields are required. -/
def Visibility.shape : Shape Visibility where
  name := "VisibilityConfig"
  fields := [
    .of "sampledRequestsEnabled" .required Reader.boolean fun visibility b =>
      { visibility with sampledRequests := b },
    .of "cloudWatchMetricsEnabled" .required Reader.boolean fun visibility b =>
      { visibility with metrics := b },
    .of "metricName" .required Reader.string fun visibility name =>
      { visibility with metricName := name }]
  isOpen := true
  start := ⟨false, false, ""⟩

/-- What is measured. -/
def Visibility.read : Reader Visibility := Visibility.shape.read

/-- Every field that is left out has the default of its own. -/
def Config.shape : Shape Config where
  name := "AclConfig"
  fields := [
    .of "name" .defaulted Reader.string fun config name => { config with name := name },
    .of "scope" .defaulted Scope.read fun config scope => { config with scope := scope },
    .of "ipAddressVersion" .defaulted AddressVersion.read fun config version =>
      { config with addressVersion := version },
    .of "userHeader" .defaulted Reader.string fun config header =>
      { config with userHeader := header },
    .of "visibility" .defaulted Visibility.read fun config visibility =>
      { config with visibility := visibility }]
  isOpen := true
  start := .default

/-- A configuration. -/
def Config.read : Reader Config := Config.shape.read

/-! ### Response bodies -/

/-- Both fields are required. -/
def ResponseBody.shape : Shape ResponseBody where
  name := "CustomResponseBody"
  fields := [
    .of "content" .required Reader.string fun body content => { body with content := content },
    .of "contentType" .required ContentType.read fun body kind => { body with contentType := kind }]
  isOpen := true
  start := .text ""

/-- A response body. -/
def ResponseBody.read : Reader ResponseBody := ResponseBody.shape.read

/-- The bodies by key; of two bodies with the same key the last one counts. -/
def readBodies : Reader (KeyTable ResponseBody) :=
  Reader.map (fun bodies key => do
    Reader.colon
    let body ← ResponseBody.read
    pure (bodies.insert key body)) KeyTable.empty

/-! ### Managed groups -/

/-- The exclusions by group; of two lists for the same group the last one counts. -/
def Exclusions.read : Reader Exclusions :=
  Reader.map (fun exclusions key => do
    let group ← Reader.choose ManagedGroup.labelled key
    Reader.colon
    let names ← Reader.list Reader.string
    pure (exclusions.insert group names)) Exclusions.none

namespace Selection

/-- The word for all groups. -/
def keyword : String := "all"

/-- The group of a value that stands for one. -/
def group? (value : Value) : Option ManagedGroup :=
  value.word? >>= (ManagedGroup.labelled.lookup ·)

/-- The selection of a value: the word for all groups, or a list of groups. -/
def ofValue? (value : Value) : Option Selection :=
  if value.word? = some keyword then some .all
  else
    match value with
    | .list items => (items.mapM group?).map .only
    | _ => none

/-- A selection. The value is read whole before its shape is looked at. -/
def read : Reader Selection := do
  let value ← Value.read
  match ofValue? value with
  | some selection => pure selection
  | none => Reader.fail .noSelection

end Selection

/-- A field that is left out asks for all groups, or excludes nothing. -/
def ManagedIntent.shape : Shape ManagedIntent where
  name := "ManagedRulesIntent"
  fields := [
    .of "rules" .defaulted Selection.read fun managed selection =>
      { managed with selection := selection },
    .of "excludedRules" .defaulted Exclusions.read fun managed exclusions =>
      { managed with exclusions := exclusions }]
  isOpen := false
  start := .default

/-- The managed groups that are wanted. -/
def ManagedIntent.read : Reader ManagedIntent := ManagedIntent.shape.read

/-! ### Limits -/

/-- A limit that is left out or `null` asks for nothing. -/
def ThrottleLimits.shape : Shape ThrottleLimits where
  name := "ThrottleLimits"
  fields := Preset.all.map fun preset =>
    .of preset.field .nullable (Reader.optional Reader.limit) fun limits limit =>
      limits.insert preset limit
  isOpen := false
  start := .none

/-- The limits of the named throttles. -/
def ThrottleLimits.read : Reader ThrottleLimits := ThrottleLimits.shape.read

/-! ### Intents -/

namespace Intents

/-- The parts of a document; all of them may be left out of an object. -/
def shape : Shape Intents where
  name := "AclIntents"
  fields := [
    .of "config" .defaulted Config.read fun intents config => { intents with config := config },
    .of "managedRules" .nullable (Reader.optional ManagedIntent.read) fun intents managed =>
      { intents with managed := managed },
    .of "ipBlocklist" .nullable (Reader.optional (Reader.list Reader.string))
      fun intents addresses => { intents with blocklist := addresses },
    .of "throttle" .defaulted ThrottleLimits.read fun intents limits =>
      { intents with throttle := limits },
    .of "customResponseBodies" .defaulted readBodies fun intents bodies =>
      { intents with bodies := bodies }]
  isOpen := false
  start := .default

/-- A document. -/
def read : Reader Intents := shape.read

/-- **The intents of a text**, or the first fault of the text. -/
def ofJson (text : String) : Except AclError Intents :=
  match Reader.document read text with
  | .ok intents => .ok intents
  | .error fault => .error (.document fault)

end Intents

end WebAcl
