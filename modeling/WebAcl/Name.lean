/-! # Names that a firewall accepts

Rules and access lists are named by word characters and hyphens, metrics also by `#`, `:`, `.` and
`/`; both have a length limit. A name outside these alphabets is reported when a list is built, but
it does not stop the build.

* `isRuleName`: 1 to 128 characters of `[A-Za-z0-9_-]`.
* `isMetricName`: 1 to 255 of these characters or of `#`, `:`, `.` and `/`. -/

namespace WebAcl.Name

/-- A letter, a digit, an underscore or a hyphen, of ASCII only. -/
def isRuleChar (c : Char) : Bool := c.isAlphanum || c = '_' || c = '-'

/-- A character of a rule name, or one of `#`, `:`, `.` and `/`. -/
def isMetricChar (c : Char) : Bool := isRuleChar c || c = '#' || c = ':' || c = '.' || c = '/'

/-- At least one and at most `most` characters, all of them permitted. -/
def fits (permitted : Char → Bool) (most : Nat) (name : String) : Bool :=
  0 < name.toList.length && name.toList.length ≤ most && name.toList.all permitted

/-- A name that a rule or an access list may bear. -/
def isRuleName (name : String) : Bool := fits isRuleChar 128 name

/-- A name that a metric may bear. -/
def isMetricName (name : String) : Bool := fits isMetricChar 255 name

end WebAcl.Name
