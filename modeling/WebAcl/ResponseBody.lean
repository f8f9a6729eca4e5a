/-! # Response bodies

The page that a blocked client gets. Bodies are registered under a key, and rules name the key. -/

namespace WebAcl

/-- The media type of a response body. -/
inductive ContentType where
  | textPlain
  | textHtml
  | applicationJson
  deriving DecidableEq

/-- The word for a media type in documents. -/
def ContentType.label : ContentType → String
  | .textPlain => "TEXT_PLAIN"
  | .textHtml => "TEXT_HTML"
  | .applicationJson => "APPLICATION_JSON"

/-- The media types with their words. -/
def ContentType.labelled : List (String × ContentType) :=
  [ContentType.textPlain, .textHtml, .applicationJson].map fun kind => (kind.label, kind)

/-- A page with its media type. -/
structure ResponseBody where
  content : String
  contentType : ContentType
  deriving DecidableEq

/-- A page of plain text. -/
def ResponseBody.text (content : String) : ResponseBody := ⟨content, .textPlain⟩

end WebAcl
