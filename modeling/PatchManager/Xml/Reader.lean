import PatchManager.Text.Str
import Mathlib.Data.List.Basic

/-! # A reader for XML

XML 1.0, read one character at a time.  `step` recognises tags, text and references and says what
has been completed; `place` puts that into the tree, of which the elements still open are kept as
a stack of frames.  References are decoded, and nothing else of the text is changed: line ends and
white space are left as they stand.  There is no document type, so only the predefined entities
and numeric references are known.
-/

namespace PatchManager.Xml

abbrev Attr := List Char × List Char

/-! ## Characters and names -/

/-- The characters a document may have. -/
def isChar (c : Char) : Bool :=
  c == '\t' || c == '\n' || c == '\r' || (0x20 ≤ c.toNat && c.toNat ≤ 0xD7FF) ||
    (0xE000 ≤ c.toNat && c.toNat ≤ 0xFFFD) || 0x10000 ≤ c.toNat

def isSpace (c : Char) : Bool := c == ' ' || c == '\t' || c == '\n' || c == '\r'

def isNameStart (c : Char) : Bool :=
  c == ':' || c == '_' || c.isAlpha ||
    [(0xC0, 0xD6), (0xD8, 0xF6), (0xF8, 0x2FF), (0x370, 0x37D), (0x37F, 0x1FFF), (0x200C, 0x200D),
      (0x2070, 0x218F), (0x2C00, 0x2FEF), (0x3001, 0xD7FF), (0xF900, 0xFDCF), (0xFDF0, 0xFFFD),
      (0x10000, 0xEFFFF)].any fun range => range.1 ≤ c.toNat && c.toNat ≤ range.2

def isNameChar (c : Char) : Bool :=
  isNameStart c || c == '-' || c == '.' || c.isDigit || c.toNat == 0xB7 ||
    (0x300 ≤ c.toNat && c.toNat ≤ 0x36F) || (0x203F ≤ c.toNat && c.toNat ≤ 0x2040)

def isName : List Char → Bool
  | [] => false
  | c :: rest => isNameStart c && rest.all isNameChar

/-! ## References -/

def numericReference (radix : Nat) (digits : List Char) : Option Char := do
  let values ← digits.mapM (Str.toDigit radix)
  if values = [] then none
  else
    -- what is not a character at all becomes the null character, which no document has
    let c := Char.ofNat (values.foldl (fun v d => radix * v + d) 0)
    if isChar c then some c else none

/-- The character that stands between `&` and `;`. -/
def reference : List Char → Option Char
  | ['a', 'm', 'p'] => some '&'
  | ['l', 't'] => some '<'
  | ['g', 't'] => some '>'
  | ['q', 'u', 'o', 't'] => some '"'
  | ['a', 'p', 'o', 's'] => some '\''
  | '#' :: 'x' :: digits => numericReference 16 digits
  | '#' :: digits => numericReference 10 digits
  | _ => none

def isReferenceChar (c : Char) : Bool := c == '#' || isNameChar c

def escapeChar : Char → List Char
  | '&' => ['&', 'a', 'm', 'p', ';']
  | '<' => ['&', 'l', 't', ';']
  | '>' => ['&', 'g', 't', ';']
  | '"' => ['&', 'q', 'u', 'o', 't', ';']
  | '\'' => ['&', 'a', 'p', 'o', 's', ';']
  | c => [c]

def escape (s : List Char) : List Char := s.flatMap escapeChar

/-! ## Tags, text and other markup -/

structure Tag where
  name : List Char
  attrs : List Attr

/-- What has been completed. -/
inductive Token where
  /-- `literal` says that no reference or section stands for it -/
  | text (s : List Char) (literal : Bool)
  | start (tag : Tag)
  | leaf (tag : Tag)
  | stop (name : List Char)

/-- Where the reader is between two characters. -/
inductive Mode where
  /-- with the number of closing square brackets just before, up to two -/
  | content (brackets : Nat)
  | reference (name : List Char)
  | markup
  | name (name : List Char)
  /-- within a tag; a blank has to come before the next attribute -/
  | tag (tag : Tag) (spaced : Bool)
  | slash (tag : Tag)
  | key (tag : Tag) (key : List Char)
  | equals (tag : Tag) (key : List Char)
  | quote (tag : Tag) (key : List Char)
  | value (tag : Tag) (key : List Char) (quote : Char) (value : List Char)
  | valueReference (tag : Tag) (key : List Char) (quote : Char) (value name : List Char)
  | closing (name : List Char)
  | closed (name : List Char)
  | bang (text : List Char)
  | comment (text : List Char)
  | cdata (text : List Char)
  | instruction (text : List Char)

/-- The tag that is being read. -/
def Mode.tag? : Mode → Option Tag
  | .tag t _ | .slash t | .key t _ | .equals t _ | .quote t _ | .value t _ _ _
  | .valueReference t _ _ _ _ => some t
  | _ => none

def Tag.within (tag : Tag) (c : Char) (spaced : Bool) : Option (Mode × Option Token) :=
  if isSpace c then some (.tag tag true, none)
  else if c = '/' then some (.slash tag, none)
  else if c = '>' then some (.content 0, some (.start tag))
  else if spaced && isNameStart c then some (.key tag [c], none)
  else none

/-- Attributes have different names. -/
def Tag.add (tag : Tag) (key value : List Char) : Option Tag :=
  if tag.attrs.any (·.1 == key) then none else some { tag with attrs := tag.attrs ++ [(key, value)] }

/-- A name other than that of the declaration, and anything after a blank. -/
def isInstruction (text : List Char) : Bool :=
  let target := text.takeWhile isNameChar
  isName target && Str.toAsciiLowercase target != ['x', 'm', 'l'] &&
    ((text.dropWhile isNameChar).head?.all isSpace)

def step : Mode → Char → Option (Mode × Option Token)
  | .content brackets, c =>
    if c = '<' then some (.markup, none)
    else if c = '&' then some (.reference [], none)
    else if c = '>' ∧ brackets = 2 then none
    else some (.content (if c = ']' then min 2 (brackets + 1) else 0), some (.text [c] true))
  | .reference name, c =>
    if c = ';' then (reference name).map fun d => (.content 0, some (.text [d] false))
    else if isReferenceChar c then some (.reference (name ++ [c]), none)
    else none
  | .markup, c =>
    if c = '/' then some (.closing [], none)
    else if c = '!' then some (.bang [], none)
    else if c = '?' then some (.instruction [], none)
    else if isNameStart c then some (.name [c], none)
    else none
  | .name name, c =>
    if isNameChar c then some (.name (name ++ [c]), none) else Tag.within ⟨name, []⟩ c false
  | .tag tag spaced, c => tag.within c spaced
  | .slash tag, c => if c = '>' then some (.content 0, some (.leaf tag)) else none
  | .key tag key, c =>
    if isNameChar c then some (.key tag (key ++ [c]), none)
    else if c = '=' then some (.quote tag key, none)
    else if isSpace c then some (.equals tag key, none)
    else none
  | .equals tag key, c =>
    if c = '=' then some (.quote tag key, none)
    else if isSpace c then some (.equals tag key, none)
    else none
  | .quote tag key, c =>
    if c = '"' ∨ c = '\'' then some (.value tag key c [], none)
    else if isSpace c then some (.quote tag key, none)
    else none
  | .value tag key quote value, c =>
    if c = quote then (tag.add key value).map fun tag => (.tag tag false, none)
    else if c = '<' then none
    else if c = '&' then some (.valueReference tag key quote value [], none)
    else some (.value tag key quote (value ++ [c]), none)
  | .valueReference tag key quote value name, c =>
    if c = ';' then (reference name).map fun d => (.value tag key quote (value ++ [d]), none)
    else if isReferenceChar c then some (.valueReference tag key quote value (name ++ [c]), none)
    else none
  | .closing name, c =>
    if isNameChar c then some (.closing (name ++ [c]), none)
    else if c = '>' then some (.content 0, some (.stop name))
    else if isSpace c then some (.closed name, none)
    else none
  | .closed name, c =>
    if c = '>' then some (.content 0, some (.stop name))
    else if isSpace c then some (.closed name, none)
    else none
  | .bang text, c =>
    if text ++ [c] = ['-', '-'] then some (.comment [], none)
    else if text ++ [c] = "[CDATA[".toList then some (.cdata [], none)
    else if text ++ [c] = ['-'] || (text ++ [c]).isPrefixOf "[CDATA[".toList then
      some (.bang (text ++ [c]), none)
    else none
  | .comment text, c =>
    if "--".toList.isSuffixOf text then if c = '>' then some (.content 0, none) else none
    else some (.comment (text ++ [c]), none)
  | .cdata text, c =>
    if c = '>' ∧ "]]".toList.isSuffixOf text then
      some (.content 0, some (.text text.dropLast.dropLast false))
    else some (.cdata (text ++ [c]), none)
  | .instruction text, c =>
    if c = '>' ∧ text.getLast? = some '?' then
      if isInstruction text.dropLast then some (.content 0, none) else none
    else some (.instruction (text ++ [c]), none)

/-! ## The tree -/

inductive Node where
  | char (c : Char)
  | element (name : List Char) (attrs : List Attr) (children : List Node)

/-- An element of which the end has not been read. -/
structure Frame where
  name : List Char
  attrs : List Attr
  children : List Node

def Frame.add (f : Frame) (nodes : List Node) : Frame := { f with children := f.children ++ nodes }

/-- The element, when `more` is added to it before its end. -/
def Frame.element (f : Frame) (more : List Node) : Node := .element f.name f.attrs (f.children ++ more)

def Tag.opened (tag : Tag) : Frame := ⟨tag.name, tag.attrs, []⟩

/-- The innermost element comes first. -/
structure Builder where
  stack : List Frame
  root : Option Node

/-- An element that has been completed. -/
def Builder.put : Builder → Node → Option Builder
  | ⟨[], none⟩, node => some ⟨[], some node⟩
  | ⟨[], some _⟩, _ => none
  | ⟨f :: rest, root⟩, node => some ⟨f.add [node] :: rest, root⟩

def Builder.place : Builder → Token → Option Builder
  | ⟨[], root⟩, .text s literal => if literal && s.all isSpace then some ⟨[], root⟩ else none
  | ⟨f :: rest, root⟩, .text s _ => some ⟨f.add (s.map .char) :: rest, root⟩
  | b, .leaf tag => b.put (tag.opened.element [])
  | ⟨[], some _⟩, .start _ => none
  | ⟨stack, root⟩, .start tag => some ⟨tag.opened :: stack, root⟩
  | ⟨[], _⟩, .stop _ => none
  | ⟨f :: rest, root⟩, .stop name =>
    if f.name = name then Builder.put ⟨rest, root⟩ (f.element []) else none

abbrev Reader := Mode × Builder

def feed (r : Reader) (c : Char) : Option Reader := do
  let (mode, token) ← step r.1 c
  match token with
  | none => some (mode, r.2)
  | some token => (r.2.place token).map fun b => (mode, b)

def read (r : Reader) (text : List Char) : Option Reader := text.foldlM feed r

def declaration : List Char := "<?xml version=\"1.0\" encoding=\"UTF-8\"?>".toList

/-- Of the declarations, this one is known. -/
def undeclared (text : List Char) : List Char :=
  if declaration.isPrefixOf text then text.drop declaration.length else text

/-- The root, when the document ends here. -/
def Reader.root? : Reader → Option Node
  | (.content _, ⟨[], root⟩) => root
  | _ => none

/-- The root of a document that is well formed. -/
def parse (text : List Char) : Option Node :=
  if text.all isChar then (read (.content 0, ⟨[], none⟩) (undeclared text)).bind Reader.root? else none

/-! ## What is asked of a node -/

def Node.children : Node → List Node
  | .char _ => []
  | .element _ _ children => children

def Node.attr (key : List Char) : Node → Option (List Char)
  | .char _ => none
  | .element _ attrs _ => attrs.lookup key

def Node.isNamed (name : List Char) : Node → Bool
  | .char _ => false
  | .element own _ _ => own == name

def Node.char? : Node → Option Char
  | .char c => some c
  | .element _ _ _ => none

def named (name : List Char) (nodes : List Node) : List Node := nodes.filter (Node.isNamed name)

/-- The elements of this name directly below. -/
def Node.elements (name : List Char) (n : Node) : List Node := named name n.children

/-- The text of an element that has nothing else in it. -/
def Node.text (n : Node) : Option (List Char) := n.children.mapM Node.char?

@[simp] theorem named_nil (name : List Char) : named name [] = [] := rfl
@[simp] theorem named_append (name : List Char) (l m : List Node) :
    named name (l ++ m) = named name l ++ named name m := List.filter_append ..
@[simp] theorem named_chars (name s : List Char) : named name (s.map .char) = [] := by
  simp [named, Node.isNamed]
@[simp] theorem named_element (name own : List Char) (attrs : List Attr) (children l : List Node) :
    named name (.element own attrs children :: l) =
      if own = name then .element own attrs children :: named name l else named name l := by
  simp [named, Node.isNamed, List.filter_cons]

@[simp] theorem text_chars (name : List Char) (attrs : List Attr) (s : List Char) :
    (Node.element name attrs (s.map .char)).text = some s := by
  rw [Node.text, Node.children]
  induction s with
  | nil => rfl
  | cons c s ih => simp [ih, Node.char?]

end PatchManager.Xml
