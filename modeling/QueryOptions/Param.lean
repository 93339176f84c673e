import QueryOptions.Text.Basic

/-!
Request parameters, flat pairs of a name and a text.
-/

namespace QueryOptions

/-- A name that the wire carries. `text` is the name itself, by which names are compared; `spelling`
is what stands for it inside longer texts. The two differ only for a name that was declared as a
descriptor kind. -/
structure WireName where
  text : Text
  spelling : Text
deriving Repr

namespace WireName

def plain (text : Text) : WireName := ⟨text, text⟩

instance : BEq WireName := ⟨fun left right => left.text == right.text⟩

instance : Coe Text WireName := ⟨plain⟩

end WireName

structure Param where
  name : WireName
  value : Text

/-- Name and value with an equals sign between them. -/
def Param.toText (param : Param) : Text := param.name.spelling ++ "=" ++ param.value

end QueryOptions
