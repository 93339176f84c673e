import QueryOptions.Text.Basic

/-!
Pointers into a document: the keys and indices on the way to a value, each after a slash. The two
characters of the notation are escaped inside a token. The empty text points to the root.
-/

namespace QueryOptions.Pointer

/-- `~` is written `~0` and `/` is written `~1`. -/
def escape (token : Text) : Text :=
  token.flatMap fun point =>
    if point = '~'.toNat then "~0" else if point = '/'.toNat then "~1" else [point]

/-- Undoes the escapes of a token. -/
def unescape : Text → Text
  | [] => []
  | [point] => [point]
  | point :: next :: rest =>
      if point = '~'.toNat && next = '0'.toNat then '~' :: unescape rest
      else if point = '~'.toNat && next = '1'.toNat then '/' :: unescape rest
      else point :: unescape (next :: rest)

/-- The pointer one step below `base`. -/
def append (base token : Text) : Text := base ++ "/" ++ escape token

/-- The pointer that the tokens make from the root. -/
def ofTokens (tokens : List Text) : Text := tokens.foldl append []

/-- The pointer without its last token; none for a text without a slash. -/
def parent? (pointer : Text) : Option Text := (Text.splitLast? '/' pointer).map (·.1)

end QueryOptions.Pointer
