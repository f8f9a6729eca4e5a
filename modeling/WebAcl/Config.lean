/-! # The configuration of an access list

Everything about a list that is not a rule: its name, where it applies, the address family of its
blocklist, the request header that tells known users from anonymous ones, and what is measured.

* `Config.default`: the configuration nobody asked for.
* `Config.named`: the default under another name.
* `Config.custom`: the default with parts set one after the other, of which the last one of a part
  counts (`Config.custom_of_samePart`). -/

namespace WebAcl

/-- Where a list applies: to a content distribution or to one region. -/
inductive Scope where
  | cloudfront
  | regional
  deriving DecidableEq

/-- The word for a scope in documents and on the screen. -/
def Scope.label : Scope → String
  | .cloudfront => "CLOUDFRONT"
  | .regional => "REGIONAL"

/-- The scopes with their words. -/
def Scope.labelled : List (String × Scope) :=
  [Scope.cloudfront, Scope.regional].map fun scope => (scope.label, scope)

/-- The family of the addresses in an IP set. -/
inductive AddressVersion where
  | ipv4
  | ipv6
  deriving DecidableEq

/-- The word for an address family in documents. -/
def AddressVersion.label : AddressVersion → String
  | .ipv4 => "IPV4"
  | .ipv6 => "IPV6"

/-- The address families with their words. -/
def AddressVersion.labelled : List (String × AddressVersion) :=
  [AddressVersion.ipv4, AddressVersion.ipv6].map fun version => (version.label, version)

/-- What is measured about a rule or a list, and under which metric. -/
structure Visibility where
  sampledRequests : Bool
  metrics : Bool
  metricName : String
  deriving DecidableEq

/-- Requests are sampled and counted. -/
def Visibility.sampled (metricName : String) : Visibility := ⟨true, true, metricName⟩

/-- Requests are counted, none is sampled. -/
def Visibility.metricsOnly (metricName : String) : Visibility := ⟨false, true, metricName⟩

/-- The configuration of an access list. -/
structure Config where
  name : String
  scope : Scope
  addressVersion : AddressVersion
  userHeader : String
  visibility : Visibility
  deriving DecidableEq

namespace Config

/-- A list for content distributions under IPv4 that tells users apart by the usual header. -/
def default : Config where
  name := "WebACL"
  scope := .cloudfront
  addressVersion := .ipv4
  userHeader := "digitraffic-user"
  visibility := .metricsOnly "WAF-Blocked"

/-- The default configuration under the given name. -/
def named (name : String) : Config := { default with name }

/-! ### Settings -/

/-- A part of a configuration with its value; of what is measured, only the metric can be set. -/
inductive Setting where
  | name (name : String)
  | scope (scope : Scope)
  | addressVersion (addressVersion : AddressVersion)
  | userHeader (userHeader : String)
  | metricName (metricName : String)

/-- Both settings are about the same part. -/
inductive Setting.SamePart : Setting → Setting → Prop
  | name (a b : String) : SamePart (.name a) (.name b)
  | scope (a b : Scope) : SamePart (.scope a) (.scope b)
  | addressVersion (a b : AddressVersion) : SamePart (.addressVersion a) (.addressVersion b)
  | userHeader (a b : String) : SamePart (.userHeader a) (.userHeader b)
  | metricName (a b : String) : SamePart (.metricName a) (.metricName b)

/-- The configuration with one part set. -/
def set (config : Config) : Setting → Config
  | .name name => { config with name }
  | .scope scope => { config with scope }
  | .addressVersion addressVersion => { config with addressVersion }
  | .userHeader userHeader => { config with userHeader }
  | .metricName metricName => { config with visibility := { config.visibility with metricName } }

/-- The default configuration with parts set one after the other. -/
def custom (settings : List Setting) : Config := settings.foldl set default

theorem set_of_samePart {first second : Setting} (h : first.SamePart second) (config : Config) :
    (config.set first).set second = config.set second := by
  cases h <;> rfl

theorem set_comm {first second : Setting} (h : ¬ first.SamePart second) (config : Config) :
    (config.set first).set second = (config.set second).set first := by
  cases first with
  | name a => cases second with
    | name b => exact absurd (.name a b) h
    | _ => rfl
  | scope a => cases second with
    | scope b => exact absurd (.scope a b) h
    | _ => rfl
  | addressVersion a => cases second with
    | addressVersion b => exact absurd (.addressVersion a b) h
    | _ => rfl
  | userHeader a => cases second with
    | userHeader b => exact absurd (.userHeader a b) h
    | _ => rfl
  | metricName a => cases second with
    | metricName b => exact absurd (.metricName a b) h
    | _ => rfl

/-- A setting is undone by a later one of the same part, whatever comes between them. -/
theorem foldl_set_of_samePart {first last : Setting} (h : first.SamePart last) :
    ∀ (between : List Setting) (config : Config),
      (between ++ [last]).foldl set (config.set first) = (between ++ [last]).foldl set config
  | [], config => set_of_samePart h config
  | setting :: between, config => by
    have ih := foldl_set_of_samePart h between (config.set setting)
    rw [List.cons_append, List.foldl_cons, List.foldl_cons]
    -- a setting of the same part undoes the first one at once, any other changes places with it
    by_cases hpart : first.SamePart setting
    · rw [set_of_samePart hpart]
    · rw [set_comm hpart, ih]

/-- **The last setting of a part counts**: an earlier one may as well be left out. -/
theorem custom_of_samePart {first last : Setting} (h : first.SamePart last)
    (before between after : List Setting) :
    custom (before ++ first :: (between ++ [last]) ++ after) =
      custom (before ++ (between ++ [last]) ++ after) := by
  unfold custom
  rw [List.foldl_append, List.foldl_append, List.foldl_append, List.foldl_append, List.foldl_cons,
    foldl_set_of_samePart h]

end Config

end WebAcl
