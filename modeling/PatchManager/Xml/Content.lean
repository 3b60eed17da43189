import PatchManager.Xml.Reader

/-! # Text that has been escaped

What is written between tags and between quotes with its special characters escaped is read as
what it was.  `Content s nodes` says of a text that it is read as these nodes wherever an element
is open.

Main results:

* `Content.append`, `Content.text`, `Content.leaf` and `Content.element`, by which such texts are
  put together.
* `read_document`: with a tag around it, such a text is a document.
-/

namespace PatchManager.Xml

/-! ## Reading goes on where it has stopped -/

@[simp] theorem read_nil (r : Reader) : read r [] = some r := rfl
@[simp] theorem read_cons (r : Reader) (c : Char) (s : List Char) :
    read r (c :: s) = (feed r c).bind (read · s) := rfl

theorem read_append (r : Reader) (s t : List Char) : read r (s ++ t) = (read r s).bind (read · t) :=
  List.foldlM_append

theorem read_append_of {r r' : Reader} {s : List Char} (reads : read r s = some r') (t : List Char) :
    read r (s ++ t) = read r' t := by
  rw [read_append, reads, Option.bind_some]

@[simp] theorem Frame.add_nil (f : Frame) : f.add [] = f := by simp [Frame.add]
@[simp] theorem Frame.children_add (f : Frame) (l : List Node) : (f.add l).children = f.children ++ l := rfl
@[simp] theorem Frame.add_add (f : Frame) (l m : List Node) : (f.add l).add m = f.add (l ++ m) := by
  simp [Frame.add]
@[simp] theorem Frame.element_add (f : Frame) (l m : List Node) :
    (f.add l).element m = f.element (l ++ m) := by
  simp [Frame.add, Frame.element]

/-! ## What has been escaped is read back -/

/-- Characters that stand for themselves everywhere. -/
def isPlain (c : Char) : Bool := c != '&' && c != '<' && c != '>' && c != '"' && c != '\''

theorem escapeChar_plain {c : Char} (plain : isPlain c = true) : escapeChar c = [c] := by
  fun_cases escapeChar c with
  | case6 => rfl
  | _ => simp [isPlain] at plain

theorem escape_plain {s : List Char} (plain : ∀ c ∈ s, isPlain c = true) : escape s = s := by
  induction s with
  | nil => rfl
  | cons c rest ih =>
    rw [List.forall_mem_cons] at plain
    rw [escape, List.flatMap_cons, escapeChar_plain plain.1, List.singleton_append]
    exact congrArg _ (ih plain.2)

/-- Escaping neither takes away nor brings in what a document cannot have. -/
theorem isChar_escape (s : List Char) : (escape s).all isChar = s.all isChar := by
  have one : ∀ c, (escapeChar c).all isChar = isChar c := by
    intro c
    fun_cases escapeChar c with
    | case6 => simp
    | _ => decide
  induction s with
  | nil => rfl
  | cons c s ih => rw [escape, List.flatMap_cons, List.all_append, one, List.all_cons, ← ih, escape]

theorem read_escapeChar (c : Char) (k : Nat) (f : Frame) (rest : List Frame) (root : Option Node) :
    ∃ k', read (.content k, ⟨f :: rest, root⟩) (escapeChar c) =
      some (.content k', ⟨f.add [.char c] :: rest, root⟩) := by
  fun_cases escapeChar c with
  | case6 _ amp lt gt =>
    refine ⟨if c = ']' then min 2 (k + 1) else 0, ?_⟩
    simp_all [feed, step, Builder.place]
  | _ => exact ⟨0, rfl⟩

theorem value_escapeChar (c : Char) (tag : Tag) (key value : List Char) (b : Builder) :
    read (.value tag key '"' value, b) (escapeChar c) = some (.value tag key '"' (value ++ [c]), b) := by
  fun_cases escapeChar c with
  | case6 _ amp lt gt quote => simp_all [feed, step]
  | _ => rfl

theorem value_escape (s : List Char) (tag : Tag) (key value : List Char) (b : Builder) :
    read (.value tag key '"' value, b) (escape s) = some (.value tag key '"' (value ++ s), b) := by
  induction s generalizing value with
  | nil => simp [escape]
  | cons c s ih =>
    have rest := ih (value ++ [c])
    rw [List.append_assoc, List.singleton_append] at rest
    rwa [escape, List.flatMap_cons, read_append_of (value_escapeChar c tag key value b)]

/-! ## Names -/

theorem read_name {s : List Char} (valid : ∀ c ∈ s, isNameChar c = true) (name : List Char) (b : Builder) :
    read (.name name, b) s = some (.name (name ++ s), b) := by
  induction s generalizing name with
  | nil => simp
  | cons c s ih =>
    rw [List.forall_mem_cons] at valid
    simp [feed, step, valid.1, ih valid.2]

theorem read_key {s : List Char} (valid : ∀ c ∈ s, isNameChar c = true) (tag : Tag) (key : List Char)
    (b : Builder) : read (.key tag key, b) s = some (.key tag (key ++ s), b) := by
  induction s generalizing key with
  | nil => simp
  | cons c s ih =>
    rw [List.forall_mem_cons] at valid
    simp [feed, step, valid.1, ih valid.2]

theorem read_closing {s : List Char} (valid : ∀ c ∈ s, isNameChar c = true) (name : List Char)
    (b : Builder) : read (.closing name, b) s = some (.closing (name ++ s), b) := by
  induction s generalizing name with
  | nil => simp
  | cons c s ih =>
    rw [List.forall_mem_cons] at valid
    simp [feed, step, valid.1, ih valid.2]

theorem isNameChar_of_isName {s : List Char} (valid : isName s = true) : ∀ c ∈ s, isNameChar c = true := by
  cases s with
  | nil => simp
  | cons c s =>
    simp only [isName, Bool.and_eq_true, List.all_eq_true] at valid
    rw [List.forall_mem_cons]
    exact ⟨by simp [isNameChar, valid.1], valid.2⟩

theorem not_punctuation {c : Char} (start : isNameStart c = true) :
    isSpace c = false ∧ c ≠ '/' ∧ c ≠ '>' ∧ c ≠ '!' ∧ c ≠ '?' := by
  refine ⟨?_, ?_, ?_, ?_, ?_⟩
  · by_contra blank
    simp only [isSpace, Bool.not_eq_false, Bool.or_eq_true, beq_iff_eq] at blank
    obtain ((rfl | rfl) | rfl) | rfl := blank <;> simp [isNameStart] at start
  all_goals
    rintro rfl
    simp [isNameStart] at start

/-! ## Tags -/

def Attr.text (a : Attr) : List Char := ' ' :: a.1 ++ '=' :: '"' :: escape a.2 ++ ['"']

/-- A tag without its end. -/
def Tag.text (tag : Tag) : List Char := '<' :: tag.name ++ tag.attrs.flatMap Attr.text

structure Tag.Valid (tag : Tag) : Prop where
  name : isName tag.name = true
  keys : ∀ a ∈ tag.attrs, isName a.1 = true
  distinct : (tag.attrs.map Prod.fst).Nodup

theorem read_attr {tag : Tag} {a : Attr} (valid : isName a.1 = true)
    (fresh : a.1 ∉ tag.attrs.map Prod.fst) (b : Builder) :
    read (.tag tag false, b) a.text = some (.tag { tag with attrs := tag.attrs ++ [a] } false, b) := by
  obtain ⟨key, value⟩ := a
  cases key with
  | nil => cases valid
  | cons c s =>
    have chars := isNameChar_of_isName valid
    rw [List.forall_mem_cons] at chars
    simp only [isName, Bool.and_eq_true] at valid
    obtain ⟨blank, slash, close, -⟩ := not_punctuation valid.1
    have spaced : read (.tag tag false, b) [' '] = some (.tag tag true, b) := rfl
    have opened : read (.tag tag true, b) [c] = some (.key tag [c], b) := by
      simp [feed, step, Tag.within, blank, slash, close, valid.1]
    have quoted : read (.key tag (c :: s), b) ['=', '"'] = some (.value tag (c :: s) '"' [], b) := rfl
    have added : tag.add (c :: s) value = some { tag with attrs := tag.attrs ++ [(c :: s, value)] } := by
      rw [Tag.add, if_neg]
      simpa [List.any_eq_true] using fresh
    have closed : read (.value tag (c :: s) '"' value, b) ['"'] =
        some (.tag { tag with attrs := tag.attrs ++ [(c :: s, value)] } false, b) := by
      simp [feed, step, added]
    have split : Attr.text (c :: s, value) =
        [' '] ++ ([c] ++ (s ++ (['=', '"'] ++ (escape value ++ ['"'])))) := by
      simp [Attr.text]
    rw [split, read_append_of spaced, read_append_of opened, read_append_of (read_key chars.2 tag [c] b), List.singleton_append,
      read_append_of quoted, read_append_of (value_escape value tag (c :: s) [] b), List.nil_append, closed]

theorem read_attrs {attrs : List Attr} {tag : Tag} (keys : ∀ a ∈ attrs, isName a.1 = true)
    (distinct : ((tag.attrs ++ attrs).map Prod.fst).Nodup) (b : Builder) :
    read (.tag tag false, b) (attrs.flatMap Attr.text) =
      some (.tag { tag with attrs := tag.attrs ++ attrs } false, b) := by
  induction attrs generalizing tag with
  | nil => simp
  | cons a attrs ih =>
    rw [List.forall_mem_cons] at keys
    have fresh : a.1 ∉ tag.attrs.map Prod.fst := by
      rw [List.map_append, List.nodup_append] at distinct
      intro mem
      exact distinct.2.2 _ mem _ (by simp) rfl
    rw [List.flatMap_cons, read_append_of (read_attr keys.1 fresh b), ih keys.2 (by simpa using distinct)]
    simp

/-- A tag is read up to the character that ends it. -/
theorem read_tag {tag : Tag} (valid : tag.Valid) {c : Char} (ends : isNameChar c = false) (k : Nat)
    (s : List Char) (b : Builder) :
    read (.content k, b) (tag.text ++ c :: s) = read (.tag tag false, b) (c :: s) := by
  obtain ⟨name, attrs⟩ := tag
  obtain ⟨named, keys, distinct⟩ := valid
  have chars := isNameChar_of_isName named
  cases name with
  | nil => cases named
  | cons d name =>
    rw [List.forall_mem_cons] at chars
    simp only [isName, Bool.and_eq_true] at named
    obtain ⟨-, slash, -, bang, question⟩ := not_punctuation named.1
    have marked : read (.content k, b) ['<'] = some (.markup, b) := rfl
    have opened : read (.markup, b) [d] = some (.name [d], b) := by
      simp [feed, step, slash, bang, question, named.1]
    have leaves : ∀ e t, isNameChar e = false →
        read (.name (d :: name), b) (e :: t) = read (.tag ⟨d :: name, []⟩ false, b) (e :: t) := by
      intro e t other
      simp [feed, step, other]
    have split : Tag.text ⟨d :: name, attrs⟩ ++ c :: s =
        ['<'] ++ ([d] ++ (name ++ (attrs.flatMap Attr.text ++ c :: s))) := by
      simp [Tag.text]
    rw [split, read_append_of marked, read_append_of opened, read_append_of (read_name chars.2 [d] b), List.singleton_append]
    have attrsRead := @read_attrs attrs ⟨d :: name, []⟩ keys distinct b
    rw [List.nil_append] at attrsRead
    cases attrs with
    | nil => exact leaves c s ends
    | cons a attrs =>
      rw [← read_append_of attrsRead]
      exact leaves ' ' _ (by decide)

theorem read_startTag {tag : Tag} (valid : tag.Valid) (s : List Char) (k : Nat) (f : Frame)
    (rest : List Frame) (root : Option Node) :
    read (.content k, ⟨f :: rest, root⟩) (tag.text ++ '>' :: s) =
      read (.content 0, ⟨tag.opened :: f :: rest, root⟩) s := by
  have started : read (.tag tag false, ⟨f :: rest, root⟩) ['>'] =
      some (.content 0, ⟨tag.opened :: f :: rest, root⟩) := by
    cases root <;> rfl
  have split : '>' :: s = ['>'] ++ s := rfl
  rw [read_tag valid (by decide), split, read_append_of started]

def stopTag (name : List Char) : List Char := '<' :: '/' :: name ++ ['>']

theorem read_stopTag {name : List Char} (valid : isName name = true) (k : Nat) (f : Frame)
    (rest : List Frame) (root : Option Node) (named : f.name = name) :
    read (.content k, ⟨f :: rest, root⟩) (stopTag name) =
      (Builder.put ⟨rest, root⟩ (f.element [])).map fun b => (.content 0, b) := by
  have opened : read (.content k, ⟨f :: rest, root⟩) ['<', '/'] =
      some (.closing [], ⟨f :: rest, root⟩) := rfl
  have split : stopTag name = ['<', '/'] ++ (name ++ ['>']) := rfl
  rw [split, read_append_of opened, read_append_of (read_closing (isNameChar_of_isName valid) [] _)]
  have notName : isNameChar '>' = false := by decide
  simp [feed, step, notName, Builder.place, named]

/-! ## Content -/

/-- Wherever an element is open, the text is read as these nodes. -/
def Content (s : List Char) (nodes : List Node) : Prop :=
  ∀ k f rest root, ∃ k', read (.content k, ⟨f :: rest, root⟩) s =
    some (.content k', ⟨f.add nodes :: rest, root⟩)

namespace Content

variable {s t : List Char} {l m : List Node} {tag : Tag}

theorem nil : Content [] [] := fun k f rest root => ⟨k, by simp⟩

theorem congr (reads : Content s l) (same : t = s) : Content t l := same ▸ reads

theorem append (first : Content s l) (second : Content t m) : Content (s ++ t) (l ++ m) := by
  intro k f rest root
  obtain ⟨k₁, readFirst⟩ := first k f rest root
  obtain ⟨k₂, readSecond⟩ := second k₁ (f.add l) rest root
  refine ⟨k₂, ?_⟩
  rw [read_append_of readFirst, readSecond, Frame.add_add]

theorem flatMap {α : Type} {f : α → List Char} {g : α → List Node} {as : List α}
    (reads : ∀ a ∈ as, Content (f a) (g a)) : Content (as.flatMap f) (as.flatMap g) := by
  induction as with
  | nil => exact .nil
  | cons a as ih =>
    rw [List.forall_mem_cons] at reads
    exact reads.1.append (ih reads.2)

theorem text (s : List Char) : Content (escape s) (s.map .char) := by
  induction s with
  | nil => exact .nil
  | cons c s ih =>
    have first : Content (escapeChar c) [.char c] := read_escapeChar c
    rw [escape, List.flatMap_cons]
    exact first.append ih

theorem plain {s : List Char} (plain : ∀ c ∈ s, isPlain c = true) : Content s (s.map .char) := by
  have read := text s
  rwa [escape_plain plain] at read

theorem leaf (valid : tag.Valid) :
    Content (tag.text ++ ['/', '>']) [.element tag.name tag.attrs []] := by
  intro k f rest root
  refine ⟨0, ?_⟩
  rw [read_tag valid (by decide)]
  rfl

theorem element (valid : tag.Valid) (inner : Content s l) :
    Content (tag.text ++ '>' :: (s ++ stopTag tag.name)) [.element tag.name tag.attrs l] := by
  intro k f rest root
  obtain ⟨k₁, readInner⟩ := inner 0 tag.opened (f :: rest) root
  refine ⟨0, ?_⟩
  rw [read_startTag valid, read_append_of readInner, read_stopTag valid.name _ _ _ _ rfl,
    Frame.element_add, List.append_nil]
  rfl

end Content

/-- An element and how it is written. -/
structure Piece where
  text : List Char
  node : Node
  reads : Content text [node]

def Piece.leaf (tag : Tag) (valid : tag.Valid) : Piece where
  text := tag.text ++ ['/', '>']
  node := .element tag.name tag.attrs []
  reads := .leaf valid

/-- An element with nothing but text. -/
def Piece.plain (tag : Tag) (s : List Char) (valid : tag.Valid) : Piece where
  text := tag.text ++ '>' :: (escape s ++ stopTag tag.name)
  node := .element tag.name tag.attrs (s.map .char)
  reads := .element valid (.text s)

/-- Every element after a text of its own, which is white space as a rule. -/
def indented (indent : List Char) (pieces : List Piece) : List Char :=
  pieces.flatMap fun piece => indent ++ piece.text

def indentedNodes (indent : List Char) (pieces : List Piece) : List Node :=
  pieces.flatMap fun piece => indent.map .char ++ [piece.node]

theorem Content.indented {indent : List Char} (plain : ∀ c ∈ indent, isPlain c = true) (pieces : List Piece) :
    Content (indented indent pieces) (indentedNodes indent pieces) := by
  induction pieces with
  | nil => exact .nil
  | cons piece pieces ih => exact ((Content.plain plain).append piece.reads).append ih

@[simp] theorem named_indentedNodes (name indent : List Char) (pieces : List Piece) :
    named name (indentedNodes indent pieces) = named name (pieces.map Piece.node) := by
  induction pieces with
  | nil => rfl
  | cons piece pieces ih =>
    have split : (piece :: pieces).map Piece.node = [piece.node] ++ pieces.map Piece.node := rfl
    rw [indentedNodes, List.flatMap_cons, List.append_assoc, named_append, named_chars, List.nil_append,
      named_append, split, named_append]
    exact congrArg _ ih

/-! ## Documents -/

theorem read_blank {s : List Char} (blank : ∀ c ∈ s, isSpace c = true) (root : Option Node) :
    read (.content 0, ⟨[], root⟩) s = some (.content 0, ⟨[], root⟩) := by
  induction s with
  | nil => rfl
  | cons c s ih =>
    rw [List.forall_mem_cons] at blank
    have space := blank.1
    simp only [isSpace, Bool.or_eq_true, beq_iff_eq] at space
    obtain ((rfl | rfl) | rfl) | rfl := space <;> exact ih blank.2

theorem read_rootTag {tag : Tag} (valid : tag.Valid) (s : List Char) :
    read (.content 0, ⟨[], none⟩) (tag.text ++ '>' :: s) = read (.content 0, ⟨[tag.opened], none⟩) s := by
  have started : read (.tag tag false, ⟨[], none⟩) ['>'] = some (.content 0, ⟨[tag.opened], none⟩) := rfl
  have split : '>' :: s = ['>'] ++ s := rfl
  rw [read_tag valid (by decide), split, read_append_of started]

theorem read_document {tag : Tag} {s blank : List Char} {l : List Node} (valid : tag.Valid)
    (inner : Content s l) (spaces : ∀ c ∈ blank, isSpace c = true) :
    read (.content 0, ⟨[], none⟩) (tag.text ++ '>' :: (s ++ (stopTag tag.name ++ blank))) =
      some (.content 0, ⟨[], some (.element tag.name tag.attrs l)⟩) := by
  obtain ⟨k, readInner⟩ := inner 0 tag.opened [] none
  have stopped : read (.content k, ⟨[tag.opened.add l], none⟩) (stopTag tag.name) =
      some (.content 0, ⟨[], some (.element tag.name tag.attrs l)⟩) := by
    rw [read_stopTag valid.name _ _ _ _ rfl, Frame.element_add, List.append_nil]
    rfl
  rw [read_rootTag valid, read_append_of readInner, read_append_of stopped, read_blank spaces]

theorem parse_declaration (text : List Char) :
    parse (declaration ++ text) =
      if text.all isChar then (read (.content 0, ⟨[], none⟩) text).bind Reader.root? else none := by
  have plain : declaration.all isChar = true := by decide
  simp [parse, undeclared, List.all_append, plain]

/-- A document with white space around its root. -/
theorem parse_document {tag : Tag} {s start stop : List Char} {l : List Node} (valid : tag.Valid)
    (inner : Content s l) (starts : start.all isSpace = true) (stops : stop.all isSpace = true)
    (chars : (start ++ (tag.text ++ '>' :: (s ++ (stopTag tag.name ++ stop)))).all isChar = true) :
    parse (declaration ++ (start ++ (tag.text ++ '>' :: (s ++ (stopTag tag.name ++ stop))))) =
      some (.element tag.name tag.attrs l) := by
  have opened := read_blank (List.all_eq_true.mp starts) none
  have reads := read_document valid inner (List.all_eq_true.mp stops)
  rw [parse_declaration, if_pos chars, read_append_of opened, reads]
  rfl

end PatchManager.Xml
