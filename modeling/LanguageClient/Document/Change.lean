import LanguageClient.Wire.Shape

/-!
# Changes of documents

What an edit of the user does to a text, as the wire gives it: a range replaced or the text as a
whole.
-/

namespace LanguageClient

/-- One change of a document. -/
inductive ContentChange where
  | replace (range : Range) (text : String)
  | full (text : String)
  deriving DecidableEq, Repr, Inhabited

namespace ContentChange

def toJson : ContentChange → Json
  | replace range text => Json.object [("range", range.toJson), ("text", .str text)]
  | full text => Json.object [("text", .str text)]

/-- The text after a change. -/
def apply (text : List Char) : ContentChange → List Char
  | full s => s.toList
  | replace range s =>
    let start := range.start.offset text
    let stop := range.stop.offset text
    Text.takeBytes start text ++ s.toList ++ Text.dropBytes stop text

end ContentChange

end LanguageClient
