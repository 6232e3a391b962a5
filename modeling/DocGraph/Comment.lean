import DocGraph.Tag
import DocGraph.Text.Basic
import DocGraph.Text.Word

/-! Documentation comments and their tags.

    The body of a comment is freed of its decoration: indentation, the gutter of stars, and blank
    lines at either end. A body that does not begin with a tag gets one for its description. The
    body's lines then fall into tags: each begins at a line that starts with a tag name and takes
    all lines up to the next such line. -/

namespace DocGraph.Comment

/-- The tag of a description. -/
def descriptionTag : String := "@desc"

/-- Stands for the missing text of a tag without one while its lines are put together. -/
def placeholder : List Char := "\x00nullary\x00".toList

/-! ### Decoration -/

/-- A blank or a tab. -/
def isIndent (c : Char) : Bool := c = ' ' || c = '\t'

/-- Drops a star at the head of a line, together with one blank or tab after it. -/
def dropStar : List Char → List Char
  | '*' :: c :: rest => if isIndent c then rest else c :: rest
  | ['*'] => []
  | line => line

/-- The lines of a comment without indentation and gutter. The first line may lose two stars: the
    one that opens the comment and one of the gutter. -/
def bodyLines (comment : List Char) : List (List Char) :=
  match (Text.splitOn '\n' (Text.unifyBreaks comment)).map (List.dropWhile isIndent) with
  | [] => []
  | first :: rest => (dropStar first :: rest).map dropStar

/-- A blank, a tab or a line feed. -/
def isMargin (c : Char) : Bool := isIndent c || c = '\n'

/-- The body of a comment. -/
def normalChars (comment : List Char) : List Char :=
  let body := Text.trimWith isMargin (Text.joinWith ['\n'] (bodyLines comment))
  match body with
  | [] => []
  | c :: _ => if c = '@' then body else descriptionTag.toList ++ ' ' :: body

/-- The body of a comment: its text without decoration, beginning with a tag. -/
def normalise (comment : String) : String := Text.onText normalChars comment

/-! ### Tags -/

/-- The name at the start of a tag's first line and, unless the line ends with it, the text after
    the blank or tab behind it. -/
def tagStart? : List Char → Option (List Char × Option (List Char))
  | '@' :: rest =>
    let word := rest.takeWhile Text.isWord
    if word.isEmpty then none
    else match rest.dropWhile Text.isWord with
      | [] => some ('@' :: word, none)
      | c :: text => if isIndent c then some ('@' :: word, some text) else none
  | _ => none

/-- The tag with the given name, text on its first line, and further lines. -/
def buildTag (name : List Char) (first : Option (List Char)) (more : List (List Char)) : Tag where
  name := String.ofList name
  value :=
    let lines := Text.joinWith ['\n'] (first.getD placeholder :: more)
    String.ofList (Text.trim (Text.eraseFirst placeholder lines))

/-- Puts one line before the lines and tags that follow it: a line that starts a tag takes the lines
    up to the next start, any other line waits for the start before it. -/
def gather (line : List Char) (later : List (List Char) × List Tag) : List (List Char) × List Tag :=
  match tagStart? line with
  | some (name, first) => ([], buildTag name first later.1 :: later.2)
  | none => (line :: later.1, later.2)

/-- The tags of a body; lines before the first tag are dropped. -/
def tagsOfBody (body : List Char) : List Tag :=
  ((Text.splitOn '\n' body).foldr gather ([], [])).2

/-- The tags of a comment. A missing or blank comment has none. -/
def tags : Option String → List Tag
  | none => []
  | some comment =>
    if (Text.trim comment.toList).isEmpty then []
    else tagsOfBody (normalChars comment.toList)

end DocGraph.Comment
