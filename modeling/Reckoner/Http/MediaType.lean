/-
Media types of request bodies.

A body is announced as JSON by the media type `application/json`, or by a type under
`application` whose suffix is `json`.  Letter case does not count, and parameters have to be
well formed but do not matter.
-/

namespace Reckoner.MediaType

/-- Whether a character may stand in a token. -/
def isTokenChar (c : Char) : Bool :=
  c.isAlphanum || "!#$%&'*+-.^_`|~".toList.contains c

/-- Whether a character may stand between quotes. -/
def isQuotedChar (c : Char) : Bool := 32 ≤ c.toNat && c.toNat ≠ 127

/-- Whether a character may stand in the value of a header. -/
def isHeaderChar (c : Char) : Bool := (32 ≤ c.toNat && c.toNat < 127) || c == '\t'

/-! ### Parameters -/

/-- What follows a quoted value: the text starts after the opening quote, and the first character is
never the closing one. -/
def afterQuoted? : List Char → Option (List Char)
  | [] => none
  | first :: cs =>
    if isQuotedChar first then
      match cs.dropWhile fun c => isQuotedChar c && c != '"' with
      | '"' :: rest =>
        match rest.dropWhile (· == ' ') with
        | [] => some []
        | ';' :: rest => some rest
        | _ => none
      | _ => none
    else none

/-- What follows a value and the semicolon after it. -/
def afterValue? : List Char → Option (List Char)
  | '"' :: cs => afterQuoted? cs
  | cs =>
    let token := cs.takeWhile isTokenChar
    match cs.dropWhile isTokenChar with
    | [] => some []
    | ';' :: rest => if token.isEmpty then none else some rest
    | _ => none

/-- Whether a text is a list of parameters; the first argument bounds the number of steps. -/
def areParameters : Nat → List Char → Bool
  | 0, cs => cs.isEmpty
  | steps + 1, cs =>
    match cs with
    | [] => true
    | ' ' :: rest => areParameters steps rest
    | _ =>
      let name := cs.takeWhile isTokenChar
      match cs.dropWhile isTokenChar with
      | '=' :: rest =>
        if name.isEmpty then false
        else match afterValue? rest with
          | some rest => areParameters steps rest
          | none => false
      | _ => false

/-! ### Types -/

/-- The subtype and, if there is a plus sign after its first character, the suffix of the text up
to the parameters. -/
def splitSuffix (cs : List Char) : List Char × List Char :=
  let suffix := (cs.reverse.takeWhile (· != '+')).reverse
  if suffix.length + 1 < cs.length then (cs.take (cs.length - suffix.length - 1), suffix)
  else (cs, [])

/-- Whether a media type stands for JSON. -/
def isJson (header : String) : Bool :=
  let cs := header.toList.map Char.toLower
  let top := cs.takeWhile isTokenChar
  match cs.dropWhile isTokenChar with
  | '/' :: rest =>
    let sub := rest.takeWhile isTokenChar
    let wellFormed := match rest.dropWhile isTokenChar with
      | [] => true
      | ';' :: parameters => !sub.isEmpty && areParameters parameters.length parameters
      | _ => false
    let (subtype, suffix) := splitSuffix sub
    header.toList.all isHeaderChar && wellFormed && top == "application".toList &&
      (subtype == "json".toList || suffix == "json".toList)
  | _ => false

end Reckoner.MediaType
