import OctoConv.Lib.Search

/-!
# The lexer of HTML

The states in which a browser reads a page byte by byte, and the start tags it meets: text, tags
with their attributes, comments and declarations, and the elements whose content is text. A byte
below 0x80 stands for itself, as in UTF-8.

Two of the lexer's steps depend on the tree the browser builds: whether the element that a tag
starts takes its content as text (a style of svg does not, a style in a select is dropped), and
whether a section of character data may open (only in svg and math). The tree construction is
therefore a parameter, `TreeBuilder`, and the results hold for every one. The comments within a
script are not told from its text: they decide where the script ends, and every text behind the
start tag of a script is improper.

## Main results

* `run_append` — a page is lexed piece by piece.
* `Proper` — a text that ends outside every tag, comment and text element, with no script started.
* `not_proper_of_script` — no text is proper behind the start tag of a script.
-/

namespace Conc.Html

/-! ## States -/

/-- A tag whose end has not been read. -/
structure Tag where
  /-- The tag begins with a slash. -/
  closing : Bool
  /-- The name in lower case. -/
  name : Bytes
  deriving DecidableEq, Repr

/-- What is being read. -/
inductive State where
  | data
  | tagOpen
  | endTagOpen
  | tagName (t : Tag)
  | beforeAttributeName (t : Tag)
  | attributeName (t : Tag)
  | afterAttributeName (t : Tag)
  | beforeAttributeValue (t : Tag)
  | doubleQuoted (t : Tag)
  | singleQuoted (t : Tag)
  | unquoted (t : Tag)
  | afterQuoted (t : Tag)
  | selfClosing (t : Tag)
  /-- A declaration or a malformed comment: both end with the next greater-than sign. -/
  | bogusComment
  | declarationOpen
  /-- This many bytes of the opening of a section of character data have been read. -/
  | cdataOpen (n : Nat)
  | cdata
  | cdataBracket
  | cdataEnd
  | declarationDash
  | commentStart
  | commentStartDash
  | comment
  | commentEndDash
  | commentEnd
  | commentEndBang
  /-- Content up to the end tag of this name. -/
  | rawText (name : Bytes)
  | rawLessThan (name : Bytes)
  | rawEndOpen (name : Bytes)
  | rawEndName (name buffer : Bytes)
  | plaintext
  deriving DecidableEq, Repr

/-- Tab, line feed, form feed, carriage return and blank. -/
def isSpace (x : UInt8) : Bool := x = 0x09 || x = 0x0A || x = 0x0C || x = 0x0D || x = 0x20

/-- A letter of ASCII. -/
def isLetter (x : UInt8) : Bool := (0x41 ≤ x && x ≤ 0x5A) || (0x61 ≤ x && x ≤ 0x7A)

/-- The elements whose content is text. -/
def rawTextNames : List Bytes :=
  ["script", "style", "title", "textarea", "xmp", "iframe", "noembed", "noframes", "noscript"].map
    Bytes.ascii

/-- What opens a section of character data, behind the first bracket. -/
def cdataName : Bytes := Bytes.ascii "CDATA["

/-- What the tree construction tells the lexer. -/
structure TreeBuilder where
  /-- The page ends with a start tag: the element takes its content as text. -/
  takesText : Bytes → Bool
  /-- The page ends with the opening of a section of character data: the open element is one of svg
  or math, so that the section begins. -/
  foreign : Bytes → Bool

/-! ## One byte -/

/-- Text. -/
def inData (x : UInt8) : State := if x = 0x3C then .tagOpen else .data

/-- In a comment. -/
def inComment (x : UInt8) : State := if x = 0x2D then .commentEndDash else .comment

/-- In the text of an element. -/
def inRawText (name : Bytes) (x : UInt8) : State :=
  if x = 0x3C then .rawLessThan name else .rawText name

/-- In a section of character data. -/
def inCdata (x : UInt8) : State := if x = 0x5D then .cdataBracket else .cdata

section

variable (b : TreeBuilder)

/-- The state in which the content of an element begins; the page ends with its start tag. -/
def content (page name : Bytes) : State :=
  if rawTextNames.contains name && b.takesText page then .rawText name
  else if name = Bytes.ascii "plaintext" && b.takesText page then .plaintext
  else .data

/-- The end of a tag, with the name of the element it starts. -/
def closeTag (page : Bytes) (t : Tag) : State × List Bytes :=
  if t.closing then (.data, []) else (content b page t.name, [t.name])

/-- Between the attributes of a tag. -/
def betweenAttributes (page : Bytes) (t : Tag) (x : UInt8) : State × List Bytes :=
  if isSpace x then (.beforeAttributeName t, [])
  else if x = 0x2F then (.selfClosing t, [])
  else if x = 0x3E then closeTag b page t
  else (.attributeName t, [])

/-- One byte: the next state, and the start tag that ends here. The page ends with this byte. -/
def step (page : Bytes) : State → UInt8 → State × List Bytes
  | .data, x => (inData x, [])
  | .tagOpen, x =>
    if x = 0x21 then (.declarationOpen, [])
    else if x = 0x2F then (.endTagOpen, [])
    else if isLetter x then (.tagName ⟨false, [asciiLower x]⟩, [])
    else if x = 0x3F then (.bogusComment, [])
    else (inData x, [])
  | .endTagOpen, x =>
    if isLetter x then (.tagName ⟨true, [asciiLower x]⟩, [])
    else if x = 0x3E then (.data, [])
    else (.bogusComment, [])
  | .tagName t, x =>
    if isSpace x then (.beforeAttributeName t, [])
    else if x = 0x2F then (.selfClosing t, [])
    else if x = 0x3E then closeTag b page t
    else (.tagName { t with name := t.name ++ [asciiLower x] }, [])
  | .beforeAttributeName t, x => betweenAttributes b page t x
  | .attributeName t, x =>
    if isSpace x then (.afterAttributeName t, [])
    else if x = 0x2F then (.selfClosing t, [])
    else if x = 0x3E then closeTag b page t
    else if x = 0x3D then (.beforeAttributeValue t, [])
    else (.attributeName t, [])
  | .afterAttributeName t, x =>
    if isSpace x then (.afterAttributeName t, [])
    else if x = 0x2F then (.selfClosing t, [])
    else if x = 0x3D then (.beforeAttributeValue t, [])
    else if x = 0x3E then closeTag b page t
    else (.attributeName t, [])
  | .beforeAttributeValue t, x =>
    if isSpace x then (.beforeAttributeValue t, [])
    else if x = 0x22 then (.doubleQuoted t, [])
    else if x = 0x27 then (.singleQuoted t, [])
    else if x = 0x3E then closeTag b page t
    else (.unquoted t, [])
  | .doubleQuoted t, x => if x = 0x22 then (.afterQuoted t, []) else (.doubleQuoted t, [])
  | .singleQuoted t, x => if x = 0x27 then (.afterQuoted t, []) else (.singleQuoted t, [])
  | .unquoted t, x =>
    if isSpace x then (.beforeAttributeName t, [])
    else if x = 0x3E then closeTag b page t
    else (.unquoted t, [])
  | .afterQuoted t, x => betweenAttributes b page t x
  | .selfClosing t, x => betweenAttributes b page t x
  | .bogusComment, x => if x = 0x3E then (.data, []) else (.bogusComment, [])
  | .declarationOpen, x =>
    if x = 0x2D then (.declarationDash, [])
    else if x = 0x5B then (.cdataOpen 0, [])
    else if x = 0x3E then (.data, [])
    else (.bogusComment, [])
  | .cdataOpen n, x =>
    if cdataName[n]? = some x then
      -- the last byte of the opening: a section, or a malformed comment that goes on
      if n + 1 < cdataName.length then (.cdataOpen (n + 1), [])
      else if b.foreign page then (.cdata, [])
      else (.bogusComment, [])
    else if x = 0x3E then (.data, [])
    else (.bogusComment, [])
  | .cdata, x => (inCdata x, [])
  | .cdataBracket, x => if x = 0x5D then (.cdataEnd, []) else (.cdata, [])
  | .cdataEnd, x =>
    if x = 0x3E then (.data, [])
    else if x = 0x5D then (.cdataEnd, [])
    else (.cdata, [])
  | .declarationDash, x =>
    if x = 0x2D then (.commentStart, [])
    else if x = 0x3E then (.data, [])
    else (.bogusComment, [])
  | .commentStart, x =>
    if x = 0x2D then (.commentStartDash, [])
    else if x = 0x3E then (.data, [])
    else (.comment, [])
  | .commentStartDash, x =>
    if x = 0x2D then (.commentEnd, [])
    else if x = 0x3E then (.data, [])
    else (.comment, [])
  | .comment, x => (inComment x, [])
  | .commentEndDash, x => if x = 0x2D then (.commentEnd, []) else (.comment, [])
  | .commentEnd, x =>
    if x = 0x3E then (.data, [])
    else if x = 0x21 then (.commentEndBang, [])
    else if x = 0x2D then (.commentEnd, [])
    else (.comment, [])
  | .commentEndBang, x =>
    if x = 0x2D then (.commentEndDash, [])
    else if x = 0x3E then (.data, [])
    else (.comment, [])
  | .rawText name, x => (inRawText name x, [])
  | .rawLessThan name, x => if x = 0x2F then (.rawEndOpen name, []) else (inRawText name x, [])
  | .rawEndOpen name, x =>
    if isLetter x then (.rawEndName name [asciiLower x], []) else (inRawText name x, [])
  | .rawEndName name buffer, x =>
    if buffer = name ∧ isSpace x then (.beforeAttributeName ⟨true, name⟩, [])
    else if buffer = name ∧ x = 0x2F then (.selfClosing ⟨true, name⟩, [])
    else if buffer = name ∧ x = 0x3E then (.data, [])
    else if isLetter x then (.rawEndName name (buffer ++ [asciiLower x]), [])
    else (inRawText name x, [])
  | .plaintext, _ => (.plaintext, [])

/-! ## Texts -/

/-- The state behind a text that follows a page, and the names of the elements it starts in their
order. -/
def run (page : Bytes) (s : State) : Bytes → State × List Bytes
  | [] => (s, [])
  | x :: rest =>
    let next := step b (page ++ [x]) s x
    ((run (page ++ [x]) next.1 rest).1, next.2 ++ (run (page ++ [x]) next.1 rest).2)

/-- A page is lexed piece by piece. -/
theorem run_append (page : Bytes) (s : State) (l m : Bytes) :
    run b page s (l ++ m) =
      ((run b (page ++ l) (run b page s l).1 m).1,
        (run b page s l).2 ++ (run b (page ++ l) (run b page s l).1 m).2) := by
  induction l generalizing page s with
  | nil => simp only [List.nil_append, List.append_nil, run]
  | cons x l ih =>
    have hpage : page ++ [x] ++ l = page ++ x :: l := List.append_assoc _ _ _
    rw [List.cons_append]
    simp only [run, ih, hpage, List.append_assoc]

/-- A quoted value is read up to its quote. -/
theorem run_doubleQuoted (page : Bytes) (t : Tag) {v l : Bytes} (hl : l = v ++ [0x22])
    (h : 0x22 ∉ v) : run b page (.doubleQuoted t) l = (.afterQuoted t, []) := by
  subst hl
  induction v generalizing page with
  | nil => rfl
  | cons x v ih =>
    have hx : x ≠ 0x22 := fun heq => h (heq ▸ List.mem_cons_self)
    rw [List.cons_append]
    simp only [run, step, if_neg hx, ih _ fun hmem => h (List.mem_cons_of_mem _ hmem)]
    rfl

/-- The text ends in the markup proper, and no script has been started before. -/
def Proper (l : Bytes) : Prop :=
  (run b [] .data l).1 = .data ∧ Bytes.ascii "script" ∉ (run b [] .data l).2

instance (l : Bytes) : Decidable (Proper b l) :=
  decidable_of_iff
    ((run b [] .data l).1 = .data ∧ (run b [] .data l).2.contains (Bytes.ascii "script") = false)
    (by simp [Proper])

/-- No text is proper behind the start tag of a script. -/
theorem not_proper_of_script {l : Bytes} (h : Bytes.ascii "script" ∈ (run b [] .data l).2)
    (m : Bytes) : ¬ Proper b (l ++ m) := by
  rintro ⟨-, hscript⟩
  rw [run_append] at hscript
  exact hscript (List.mem_append_left _ h)

/-- The style of an svg element is read as markup: its script is one. -/
example (h : b.takesText (Bytes.ascii "<html><svg><style>") = false) (m : Bytes) :
    ¬ Proper b (Bytes.ascii "<html><svg><style><script>" ++ m) := by
  refine not_proper_of_script b ?_ m
  have hstyle : run b [] .data (Bytes.ascii "<html><svg><style>") =
      (content b (Bytes.ascii "<html><svg><style>") (Bytes.ascii "style"),
        ["html", "svg", "style"].map Bytes.ascii) := rfl
  have hdata : content b (Bytes.ascii "<html><svg><style>") (Bytes.ascii "style") = .data := by
    unfold content
    rw [h, Bool.and_false, Bool.and_false]
    rfl
  have hsplit : Bytes.ascii "<html><svg><style><script>" =
      Bytes.ascii "<html><svg><style>" ++ Bytes.ascii "<script>" := rfl
  rw [hsplit, run_append, hstyle, hdata]
  exact List.mem_append_right _ (List.mem_singleton.mpr rfl)

end

end Conc.Html
