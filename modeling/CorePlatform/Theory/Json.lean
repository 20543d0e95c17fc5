/-! # JSON documents

A document as a reader has it once the text is parsed. Readers look up the fields they know and
pass over the others.
-/

namespace CorePlatform.Theory

inductive Json where
  | null
  | bool (value : Bool)
  | number (value : Int)
  | text (value : String)
  | object (fields : List (String × Json))

namespace Json

def field (key : String) : Json → Option Json
  | .object fields => fields.lookup key
  | _ => none

def asText : Json → Option String
  | .text value => some value
  | _ => none

def textField (key : String) (json : Json) : Option String := (json.field key).bind asText

def optionalText (key : String) (json : Json) : Option (Option String) :=
  match json.field key with
  | none | some .null => some none
  | some (.text value) => some (some value)
  | some _ => none

end Json
end CorePlatform.Theory
