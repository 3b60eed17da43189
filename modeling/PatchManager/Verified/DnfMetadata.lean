import PatchManager.Conc.Among
import PatchManager.Repo.Generators
import PatchManager.Xml.Reading

/-! # The lists of a DNF repository

`primary.xml` and `filelists.xml` as a reader of XML finds them, against the headers of the
packages they list.  The headers are escaped, but three things are not looked after: a file that is
not a package is counted, a file name is written as it is, and characters that XML does not have
are passed on.

Main results:

* `dnf_lists_iff`: the two lists say what the packages say exactly if every `.rpm` file is a
  package, its header and its name have only characters of XML, and its name has no quote,
  ampersand or opening bracket.
-/

namespace PatchManager.Generators

open PatchManager.Conc

variable {T : Tools}

/-! ## What is to be listed -/

/-- A package that has been parsed, with what the lists say of its file. -/
structure Listed where
  filename : String
  info : RpmInfo
  sha256 : String
  size : Nat
  modified : Nat

/-- The `.rpm` files, in the order in which they are gone through. -/
def Disk.rpmFiles (w : Disk T) : List String := sortNames (((w.pool .dnf).map (·.filename)).filter isRpm)

def Disk.listed? (w : Disk T) (filename : String) : Option Listed := do
  let file ← (w.pool .dnf).find? (·.filename == filename)
  let info ← T.parseRpm file.data
  return ⟨filename, info, T.sha256 file.data, T.size file.data, file.modified⟩

/-- The files that are packages. -/
def Disk.listed (w : Disk T) : List Listed := w.rpmFiles.filterMap w.listed?

/-- The texts of all elements of this name directly below a node. -/
def texts (name : String) (n : Xml.Node) : List (Option (List Char)) :=
  (n.elements name.toList).map Xml.Node.text

def values (name key : String) (n : Xml.Node) : List (Option (List Char)) :=
  (n.elements name.toList).map (Xml.Node.attr key.toList)

/-- What a `package` element of `primary.xml` says. -/
structure PrimaryEntry where
  name : List (Option (List Char))
  version : List (Option (List Char))
  summary : List (Option (List Char))
  description : List (Option (List Char))
  url : List (Option (List Char))
  location : List (Option (List Char))

def primaryEntry (package : Xml.Node) : PrimaryEntry where
  name := texts "name" package
  version := values "version" "ver" package
  summary := texts "summary" package
  description := texts "description" package
  url := texts "url" package
  location := values "location" "href" package

/-- Each of them once, as it stands in the header. -/
def Listed.primaryEntry (p : Listed) : PrimaryEntry where
  name := [some p.info.name.toList]
  version := [some p.info.version.toList]
  summary := [some p.info.summary.toList]
  description := [some p.info.description.toList]
  url := [some p.info.url.toList]
  location := [some ("Packages/".toList ++ p.filename.toList)]

structure FilelistsEntry where
  name : Option (List Char)
  version : List (Option (List Char))

def filelistsEntry (package : Xml.Node) : FilelistsEntry where
  name := package.attr "name".toList
  version := values "version" "ver" package

def Listed.filelistsEntry (p : Listed) : FilelistsEntry where
  name := some p.info.name.toList
  version := [some p.info.version.toList]

/-- The text is well formed, says how many packages it lists, and lists what is expected. -/
def Lists {E : Type} (text : String) (entry : Xml.Node → E) (expected : List E) : Prop :=
  ∃ root, Xml.parse text.toList = some root ∧
    root.attr "packages".toList = some (toString (root.elements "package".toList).length).toList ∧
    (root.elements "package".toList).map entry = expected

/-- The lists on disk are those of the packages. -/
def Disk.Lists (w : Disk T) (packages : List Listed) : Prop :=
  ∃ primary filelists : String,
    w.index .primary = some (T.gzip (T.encode primary)) ∧
    w.index .filelists = some (T.gzip (T.encode filelists)) ∧
    Generators.Lists primary Generators.primaryEntry (packages.map Listed.primaryEntry) ∧
    Generators.Lists filelists Generators.filelistsEntry (packages.map Listed.filelistsEntry)

/-- Texts and compressed files are read back, and digests are hexadecimal. -/
structure Tools.Sound (T : Tools) : Prop where
  encode : Function.Injective T.encode
  gzip : Function.Injective T.gzip
  sha256 : ∀ data, ∀ c ∈ (T.sha256 data).toList, c ∈ "0123456789abcdef".toList

def isChars (s : String) : Bool := s.toList.all Xml.isChar

/-- The texts of a header that the lists have. -/
def RpmInfo.texts (info : RpmInfo) : List String :=
  [info.name, info.arch, info.version, info.release, info.summary, info.description, info.url]

/-- Everything the lists have of the header can stand in a document, and so can the name of the
    file, between quotes as it is. -/
structure Listed.Fit (p : Listed) : Prop where
  header : p.info.texts.all isChars = true
  filename : isChars p.filename = true
  quotable : p.filename.toList.all Xml.isQuotable = true

/-! ## Escaping -/

theorem replace_char (a : Char) (value s : List Char) :
    Str.replace [a] value s = s.flatMap fun c => if c = a then value else [c] := by
  induction s with
  | nil => rfl
  | cons c s ih =>
    rw [Str.replace] at ih
    rw [Str.replace, Str.replaceFrom_cons, List.flatMap_cons, List.isPrefixOf]
    by_cases same : c = a
    · simp [same, ih]
    · have other : (a == c) = false := by simpa using fun eq => same eq.symm
      simp [same, other, ih]

/-- The ampersand is replaced first, so nothing is escaped twice. -/
theorem xmlEscape_toList (s : String) : (xmlEscape s).toList = Xml.escape s.toList := by
  have one : ∀ c : Char, ((((if c = '&' then "&amp;".toList else [c]).flatMap
      fun c => if c = '<' then "&lt;".toList else [c]).flatMap
      fun c => if c = '>' then "&gt;".toList else [c]).flatMap
      fun c => if c = '"' then "&quot;".toList else [c]).flatMap
      (fun c => if c = '\'' then "&apos;".toList else [c]) = Xml.escapeChar c := by
    intro c
    fun_cases Xml.escapeChar c with
    | case6 _ amp lt gt quote apos =>
      simp only [if_neg amp, if_neg lt, if_neg gt, if_neg quote, if_neg apos, List.flatMap_cons,
        List.flatMap_nil, List.append_nil]
    | _ => decide
  have replaced : (xmlEscape s).toList = Str.replace ['\''] "&apos;".toList (Str.replace ['"'] "&quot;".toList
      (Str.replace ['>'] "&gt;".toList (Str.replace ['<'] "&lt;".toList
        (Str.replace ['&'] "&amp;".toList s.toList)))) := String.toList_ofList
  simp only [replaced, replace_char, List.flatMap_assoc]
  exact List.flatMap_congr fun c _ => by simpa only [List.flatMap_assoc] using one c

/-! ## The elements of a package -/

def tagOf (name : String) (keys values : List String) : Xml.Tag :=
  ⟨name.toList, (keys.map String.toList).zip (values.map String.toList)⟩

/-- Whether a tag can be written depends on its names only. -/
def isTag (name : String) (keys : List String) : Bool :=
  Xml.isName name.toList && keys.all (fun key => Xml.isName key.toList) && decide (keys.map String.toList).Nodup

theorem tagOf_valid {name : String} {keys values : List String} (valid : isTag name keys = true)
    (enough : keys.length = values.length) : (tagOf name keys values).Valid := by
  simp only [isTag, Bool.and_eq_true, List.all_eq_true, decide_eq_true_eq] at valid
  obtain ⟨⟨named, keyed⟩, distinct⟩ := valid
  have firsts : (tagOf name keys values).attrs.map Prod.fst = keys.map String.toList :=
    List.map_fst_zip (by simp [enough])
  refine ⟨named, fun a mem => ?_, firsts ▸ distinct⟩
  have among : a.1 ∈ keys.map String.toList := firsts ▸ List.mem_map_of_mem mem
  obtain ⟨key, there, eq⟩ := List.mem_map.mp among
  exact eq ▸ keyed key there

/-- An element with a text that is escaped. -/
def field (name s : String) (valid : isTag name [] = true) : Xml.Piece :=
  .plain (tagOf name [] []) s.toList (tagOf_valid valid rfl)

def versionPiece (info : RpmInfo) : Xml.Piece :=
  .leaf (tagOf "version" ["epoch", "ver", "rel"] [toString info.epoch, info.version, info.release])
    (tagOf_valid (by decide) rfl)

namespace Listed

variable (p : Listed)

def time : Xml.Piece :=
  .leaf (tagOf "time" ["file", "build"] [toString p.modified, toString p.info.buildTime])
    (tagOf_valid (by decide) rfl)

def sizes : Xml.Piece :=
  .leaf (tagOf "size" ["package", "installed", "archive"]
    [toString p.size, toString p.info.size, toString p.info.archiveSize]) (tagOf_valid (by decide) rfl)

/-- What comes before the location of a package. -/
def before : List Xml.Piece :=
  [field "name" p.info.name (by decide), field "arch" p.info.arch (by decide), versionPiece p.info,
    field "summary" p.info.summary (by decide), field "description" p.info.description (by decide),
    field "url" p.info.url (by decide), p.time, p.sizes]

def checksum : Xml.Piece :=
  .plain (tagOf "checksum" ["type", "pkgid"] ["sha256", "YES"]) p.sha256.toList (tagOf_valid (by decide) rfl)

def primaryTag : Xml.Tag := tagOf "package" ["type"] ["rpm"]

def filelistsTag : Xml.Tag := tagOf "package" ["pkgid", "name", "arch"] [p.sha256, p.info.name, p.info.arch]

def primary : String := primaryPackage p.info p.filename p.sha256 p.size p.modified

def filelists : String := filelistsPackage p.info p.sha256

end Listed

theorem isPlain_of_isDigit {c : Char} (digit : c.isDigit = true) : Xml.isPlain c = true := by
  simp only [Xml.isPlain, Bool.and_eq_true, bne_iff_ne]
  refine ⟨⟨⟨⟨?_, ?_⟩, ?_⟩, ?_⟩, ?_⟩ <;> rintro rfl <;> cases digit

theorem escape_toDigits (n : Nat) : Xml.escape (Nat.toDigits 10 n) = Nat.toDigits 10 n :=
  Xml.escape_plain fun _ mem => isPlain_of_isDigit (Nat.isDigit_of_mem_toDigits (by decide) (by decide) mem)

theorem escape_sha256 (sound : T.Sound) (data : T.Bytes) :
    Xml.escape (T.sha256 data).toList = (T.sha256 data).toList := by
  have hex : ∀ c ∈ "0123456789abcdef".toList, Xml.isPlain c = true := List.all_eq_true.mp (by decide)
  exact Xml.escape_plain fun c mem => hex c (sound.sha256 data c mem)

/-- A digest that needs no escaping. -/
def Listed.Hex (p : Listed) : Prop := Xml.escape p.sha256.toList = p.sha256.toList

/-! ## The texts of the elements, line by line -/

theorem field_line (rest : List Char) (name s start stop : String) (valid : isTag name [] = true)
    (starts : start.toList = "    <".toList ++ (name.toList ++ ">".toList))
    (stops : stop.toList = "</".toList ++ (name.toList ++ ">\n".toList)) :
    start.toList ++ (Xml.escape s.toList ++ (stop.toList ++ rest)) =
      "    ".toList ++ ((field name s valid).text ++ ("\n".toList ++ rest)) := by
  rw [starts, stops]
  simp [field, Xml.Piece.plain, Xml.Tag.text, tagOf, Xml.stopTag]

theorem version_line (rest : List Char) (info : RpmInfo) :
    (versionTag info).toList ++ rest = "    ".toList ++ ((versionPiece info).text ++ ("\n".toList ++ rest)) := by
  unfold versionTag
  simp only [String.toList_append, xmlEscape_toList]
  simp [versionPiece, Xml.Piece.leaf, Xml.Tag.text, Xml.Attr.text, tagOf, escape_toDigits]

theorem time_line (rest : List Char) (p : Listed) :
    "    <time file=\"".toList ++ ((toString p.modified).toList ++ ("\" build=\"".toList ++
      ((toString p.info.buildTime).toList ++ ("\"/>\n".toList ++ rest)))) =
    "    ".toList ++ (p.time.text ++ ("\n".toList ++ rest)) := by
  simp [Listed.time, Xml.Piece.leaf, Xml.Tag.text, Xml.Attr.text, tagOf, escape_toDigits]

theorem size_line (rest : List Char) (p : Listed) :
    "    <size package=\"".toList ++ ((toString p.size).toList ++ ("\" installed=\"".toList ++
      ((toString p.info.size).toList ++ ("\" archive=\"".toList ++
        ((toString p.info.archiveSize).toList ++ ("\"/>\n".toList ++ rest)))))) =
    "    ".toList ++ (p.sizes.text ++ ("\n".toList ++ rest)) := by
  simp [Listed.sizes, Xml.Piece.leaf, Xml.Tag.text, Xml.Attr.text, tagOf, escape_toDigits]

theorem checksum_line (rest : List Char) {p : Listed} (hex : p.Hex) :
    "    <checksum type=\"sha256\" pkgid=\"YES\">".toList ++ (p.sha256.toList ++ ("</checksum>\n".toList ++ rest)) =
      "    ".toList ++ (p.checksum.text ++ ("\n".toList ++ rest)) := by
  have sha256 : Xml.escape "sha256".toList = "sha256".toList := by decide
  have yes : Xml.escape "YES".toList = "YES".toList := by decide
  rw [Listed.Hex] at hex
  simp only [Listed.checksum, Xml.Piece.plain, Xml.Tag.text, Xml.Attr.text, tagOf, hex, List.map_cons,
    List.map_nil, List.zip_cons_cons, List.zip_nil_left, List.flatMap_cons, List.flatMap_nil, sha256, yes]
  simp [Xml.stopTag]

theorem primaryTag_text : Listed.primaryTag.text = "<package type=\"rpm\"".toList := by
  rw [Listed.primaryTag, tagOf, Xml.Tag.text, List.map_cons, List.map_cons, String.toList_ofList, String.toList_ofList,
    String.toList_ofList, String.toList_ofList]
  rfl

/-- The text of a package in `primary.xml`, with its file name as it is. -/
theorem primary_toList {p : Listed} (hex : p.Hex) : p.primary.toList =
    "  ".toList ++ (Listed.primaryTag.text ++ '>' :: (Xml.indented "\n    ".toList p.before ++
      ("\n    <location href=\"Packages/".toList ++ (p.filename.toList ++ '"' :: ("/>".toList ++
        (Xml.indented "\n    ".toList [p.checksum] ++ ("\n  ".toList ++
          (Xml.stopTag "package".toList ++ "\n".toList)))))))) := by
  have name := fun rest => field_line rest "name" p.info.name "    <name>" "</name>\n" (by decide) rfl rfl
  have arch := fun rest => field_line rest "arch" p.info.arch "    <arch>" "</arch>\n" (by decide) rfl rfl
  have summary := fun rest =>
    field_line rest "summary" p.info.summary "    <summary>" "</summary>\n" (by decide) rfl rfl
  have description := fun rest =>
    field_line rest "description" p.info.description "    <description>" "</description>\n" (by decide) rfl rfl
  have url := fun rest => field_line rest "url" p.info.url "    <url>" "</url>\n" (by decide) rfl rfl
  -- the end of a line goes with the indentation of the next
  have newline : ∀ rest, "\n".toList ++ ("    ".toList ++ rest) = "\n    ".toList ++ rest := by
    intro rest
    rw [String.toList_ofList, String.toList_ofList, String.toList_ofList]
    rfl
  have begins : ∀ rest, "  <package type=\"rpm\">\n".toList ++ ("    ".toList ++ rest) =
      "  ".toList ++ (Listed.primaryTag.text ++ '>' :: ("\n    ".toList ++ rest)) := by
    intro rest
    rw [primaryTag_text, String.toList_ofList, String.toList_ofList, String.toList_ofList, String.toList_ofList]
    rfl
  have locates : ∀ rest, "\n".toList ++ ("    <location href=\"Packages/".toList ++ rest) =
      "\n    <location href=\"Packages/".toList ++ rest := by
    intro rest
    rw [String.toList_ofList, String.toList_ofList, String.toList_ofList]
    rfl
  have located : ∀ rest, "\"/>\n".toList ++ ("    ".toList ++ rest) =
      '"' :: ("/>".toList ++ ("\n    ".toList ++ rest)) := by
    intro rest
    rw [String.toList_ofList, String.toList_ofList, String.toList_ofList, String.toList_ofList]
    rfl
  have ends : "\n".toList ++ "  </package>\n".toList =
      "\n  ".toList ++ (Xml.stopTag "package".toList ++ "\n".toList) := rfl
  unfold Listed.primary primaryPackage
  simp only [String.toList_append, xmlEscape_toList, List.append_assoc]
  simp only [name, arch, version_line, summary, description, url, time_line, size_line,
    fun rest => checksum_line rest hex]
  simp only [Listed.before, Xml.indented, List.flatMap_cons, List.flatMap_nil, List.append_assoc, newline,
    List.append_nil]
  rw [begins, locates, located, ends]

theorem filelists_toList {p : Listed} (hex : p.Hex) : p.filelists.toList =
    "  ".toList ++ (p.filelistsTag.text ++ '>' :: (Xml.indented "\n    ".toList [versionPiece p.info] ++
      ("\n  ".toList ++ (Xml.stopTag "package".toList ++ "\n".toList)))) := by
  have ends : "\n".toList ++ "  </package>\n".toList =
      "\n  ".toList ++ (Xml.stopTag "package".toList ++ "\n".toList) := rfl
  unfold Listed.filelists filelistsPackage
  rw [Listed.Hex] at hex
  simp only [String.toList_append, xmlEscape_toList, List.append_assoc, version_line, ends]
  simp [Xml.indented, Xml.Tag.text, Xml.Attr.text, Listed.filelistsTag, tagOf, hex]

/-! ## What is read of a package -/

/-- White space between two elements. -/
def blank (s : String) : List Xml.Node := s.toList.map .char

def locationTag : Xml.Tag := ⟨"location".toList, []⟩

namespace Listed

variable (p : Listed)

def locationNode : Xml.Node :=
  .element "location".toList [("href".toList, "Packages/".toList ++ p.filename.toList)] []

def primaryNode : Xml.Node :=
  .element "package".toList primaryTag.attrs
    (Xml.indentedNodes "\n    ".toList p.before ++ (blank "\n    " ++ [p.locationNode] ++
      (Xml.indentedNodes "\n    ".toList [p.checksum] ++ blank "\n  ")))

def filelistsNode : Xml.Node :=
  .element "package".toList p.filelistsTag.attrs
    (Xml.indentedNodes "\n    ".toList [versionPiece p.info] ++ blank "\n  ")

end Listed

theorem content_blank {s : String} (plain : s.toList.all Xml.isPlain = true) : Xml.Content s.toList (blank s) :=
  .plain (List.all_eq_true.mp plain)

/-- The reader is in the middle of the location when it comes to the name of the file. -/
theorem read_location (s : List Char) (k : Nat) (f : Xml.Frame) (outer : List Xml.Frame) (done : Option Xml.Node) :
    Xml.read (.content k, ⟨f :: outer, done⟩) ("\n    <location href=\"Packages/".toList ++ s) =
      Xml.read (.value locationTag "href".toList '"' "Packages/".toList,
        ⟨f.add (blank "\n    ") :: outer, done⟩) s := by
  have split : "\n    <location href=\"Packages/".toList =
      "\n    ".toList ++ "<location href=\"Packages/".toList := rfl
  obtain ⟨k', spaced⟩ := content_blank (s := "\n    ") (by decide) k f outer done
  have begun : Xml.read (.content k', ⟨f.add (blank "\n    ") :: outer, done⟩) "<location href=\"Packages/".toList =
      some (.value locationTag "href".toList '"' "Packages/".toList,
        ⟨f.add (blank "\n    ") :: outer, done⟩) := rfl
  rw [split, List.append_assoc, Xml.read_append_of spaced, Xml.read_append_of begun]

theorem content_location {p : Listed} (fit : p.filename.toList.all Xml.isQuotable = true) :
    Xml.Content ("\n    <location href=\"Packages/".toList ++ (p.filename.toList ++ '"' :: "/>".toList))
      (blank "\n    " ++ [p.locationNode]) := by
  intro k f outer done
  refine ⟨0, ?_⟩
  rw [read_location, Xml.read_append_of (Xml.value_quotable (List.all_eq_true.mp fit)), ← Xml.Frame.add_add]
  rfl

theorem primaryTag_valid : Listed.primaryTag.Valid := tagOf_valid (by decide) rfl

theorem filelistsTag_valid (p : Listed) : p.filelistsTag.Valid := tagOf_valid (by decide) rfl

theorem content_primary {p : Listed} (hex : p.Hex) (fit : p.filename.toList.all Xml.isQuotable = true) :
    Xml.Content p.primary.toList (blank "  " ++ ([p.primaryNode] ++ blank "\n")) := by
  have indent : ∀ c ∈ "\n    ".toList, Xml.isPlain c = true := List.all_eq_true.mp (by decide)
  have inner := (Xml.Content.indented indent p.before).append ((content_location fit).append
    ((Xml.Content.indented indent [p.checksum]).append (content_blank (s := "\n  ") (by decide))))
  have whole := (content_blank (s := "  ") (by decide)).append
    ((Xml.Content.element primaryTag_valid inner).append (content_blank (s := "\n") (by decide)))
  refine whole.congr ?_
  rw [primary_toList hex]
  simp only [List.append_assoc, List.cons_append]
  rfl

theorem content_filelists {p : Listed} (hex : p.Hex) :
    Xml.Content p.filelists.toList (blank "  " ++ ([p.filelistsNode] ++ blank "\n")) := by
  have indent : ∀ c ∈ "\n    ".toList, Xml.isPlain c = true := List.all_eq_true.mp (by decide)
  have inner := (Xml.Content.indented indent [versionPiece p.info]).append
    (content_blank (s := "\n  ") (by decide))
  have whole := (content_blank (s := "  ") (by decide)).append
    ((Xml.Content.element (filelistsTag_valid p) inner).append (content_blank (s := "\n") (by decide)))
  refine whole.congr ?_
  rw [filelists_toList hex]
  simp only [List.append_assoc, List.cons_append]
  rfl

@[simp] theorem named_blank (name : List Char) (s : String) : Xml.named name (blank s) = [] :=
  Xml.named_chars name _

theorem elements_primaryNode (p : Listed) (name : String) : p.primaryNode.elements name.toList =
    Xml.named name.toList (p.before.map Xml.Piece.node ++ [p.locationNode, p.checksum.node]) := by
  have others : Xml.named name.toList [p.locationNode, p.checksum.node] =
      Xml.named name.toList [p.locationNode] ++ Xml.named name.toList [p.checksum.node] :=
    Xml.named_append _ [_] [_]
  simp only [Xml.Node.elements, Xml.Node.children, Listed.primaryNode, Xml.named_append, named_blank,
    Xml.named_indentedNodes, others, List.map_cons, List.map_nil, List.nil_append, List.append_nil]

theorem texts_of {n : Xml.Node} {name : String} {own s : List Char} {attrs : List Xml.Attr}
    (only : n.elements name.toList = [.element own attrs (s.map .char)]) : texts name n = [some s] := by
  rw [texts, only, List.map_singleton, Xml.text_chars]

theorem values_of {n m : Xml.Node} {name key : String} (only : n.elements name.toList = [m]) :
    values name key n = [m.attr key.toList] := by
  rw [values, only, List.map_singleton]

/-- What is read of a package is what its header says. -/
theorem primaryEntry_primaryNode (p : Listed) : primaryEntry p.primaryNode = p.primaryEntry := by
  have name : texts "name" p.primaryNode = [some p.info.name.toList] :=
    texts_of (elements_primaryNode p "name")
  have version : values "version" "ver" p.primaryNode = [some p.info.version.toList] :=
    values_of (elements_primaryNode p "version")
  have summary : texts "summary" p.primaryNode = [some p.info.summary.toList] :=
    texts_of (elements_primaryNode p "summary")
  have description : texts "description" p.primaryNode = [some p.info.description.toList] :=
    texts_of (elements_primaryNode p "description")
  have url : texts "url" p.primaryNode = [some p.info.url.toList] := texts_of (elements_primaryNode p "url")
  have location : values "location" "href" p.primaryNode =
      [some ("Packages/".toList ++ p.filename.toList)] :=
    values_of (elements_primaryNode p "location")
  rw [primaryEntry, Listed.primaryEntry, name, version, summary, description, url, location]

theorem filelistsEntry_filelistsNode (p : Listed) : filelistsEntry p.filelistsNode = p.filelistsEntry := by
  have only : p.filelistsNode.elements "version".toList = [(versionPiece p.info).node] := by
    rw [Xml.Node.elements, Listed.filelistsNode, Xml.Node.children, Xml.named_append, named_blank,
      Xml.named_indentedNodes]
    rfl
  have version : values "version" "ver" p.filelistsNode = [some p.info.version.toList] := values_of only
  rw [filelistsEntry, Listed.filelistsEntry, version]
  rfl

/-! ## The documents -/

def metadataTag (count : Nat) : Xml.Tag :=
  tagOf "metadata" ["xmlns", "xmlns:rpm", "packages"]
    ["http://linux.duke.edu/metadata/common", "http://linux.duke.edu/metadata/rpm", toString count]

def filelistsRootTag (count : Nat) : Xml.Tag :=
  tagOf "filelists" ["xmlns", "packages"] ["http://linux.duke.edu/metadata/filelists", toString count]

theorem metadataTag_valid (count : Nat) : (metadataTag count).Valid := tagOf_valid (by decide) rfl

theorem filelistsRootTag_valid (count : Nat) : (filelistsRootTag count).Valid := tagOf_valid (by decide) rfl

/-- The part of a document after its declaration. -/
def document (tag : Xml.Tag) (body : List Char) : List Char :=
  "\n".toList ++ (tag.text ++ '>' :: (("\n".toList ++ body) ++ (Xml.stopTag tag.name ++ "\n".toList)))

/-- The number of packages is the last attribute of the root. -/
theorem document_packages (name : List Char) (attrs : List Xml.Attr) (count : Nat) (body : List Char) :
    document ⟨name, attrs ++ [("packages".toList, (toString count).toList)]⟩ body =
      "\n".toList ++ (Xml.Tag.text ⟨name, attrs⟩ ++ (" packages=\"".toList ++ ((toString count).toList ++
        ("\">\n".toList ++ (body ++ (Xml.stopTag name ++ "\n".toList)))))) := by
  have digits : (toString count).toList = Nat.toDigits 10 count := by simp
  rw [digits, document, Xml.Tag.text, Xml.Tag.text, List.flatMap_append, List.flatMap_singleton,
    Xml.Attr.text, escape_toDigits]
  simp

def metadataAttrs : List Xml.Attr :=
  [("xmlns".toList, "http://linux.duke.edu/metadata/common".toList),
    ("xmlns:rpm".toList, "http://linux.duke.edu/metadata/rpm".toList)]

/-- The declaration takes the first line. -/
theorem declaration_line :
    "<?xml version=\"1.0\" encoding=\"UTF-8\"?>\n".toList = Xml.declaration ++ "\n".toList := by
  delta Xml.declaration
  rw [String.toList_ofList, String.toList_ofList, String.toList_ofList]
  rfl

theorem metadata_opened : "<metadata xmlns=\"http://linux.duke.edu/metadata/common\" ".toList ++
    "xmlns:rpm=\"http://linux.duke.edu/metadata/rpm\" packages=\"".toList =
      Xml.Tag.text ⟨"metadata".toList, metadataAttrs⟩ ++ " packages=\"".toList := by
  delta metadataAttrs
  rw [String.toList_ofList, String.toList_ofList, String.toList_ofList, String.toList_ofList, String.toList_ofList,
    String.toList_ofList, String.toList_ofList, String.toList_ofList]
  rfl

theorem filelists_opened : "<filelists xmlns=\"http://linux.duke.edu/metadata/filelists\" packages=\"".toList =
    Xml.Tag.text ⟨"filelists".toList, [("xmlns".toList, "http://linux.duke.edu/metadata/filelists".toList)]⟩ ++
      " packages=\"".toList := by
  rw [String.toList_ofList, String.toList_ofList, String.toList_ofList, String.toList_ofList, String.toList_ofList]
  rfl

theorem primaryXml_toList (count : Nat) (body : String) :
    (primaryXml count body).toList = Xml.declaration ++ document (metadataTag count) body.toList := by
  have stopped : "</metadata>\n".toList = Xml.stopTag "metadata".toList ++ "\n".toList := rfl
  have tag : document (metadataTag count) body.toList = _ :=
    document_packages "metadata".toList metadataAttrs count body.toList
  unfold primaryXml
  rw [tag, ← List.append_assoc (Xml.Tag.text _), ← metadata_opened]
  simp only [String.toList_append, declaration_line, stopped, List.append_assoc]

theorem filelistsXml_toList (count : Nat) (body : String) :
    (filelistsXml count body).toList = Xml.declaration ++ document (filelistsRootTag count) body.toList := by
  have stopped : "</filelists>\n".toList = Xml.stopTag "filelists".toList ++ "\n".toList := rfl
  have tag : document (filelistsRootTag count) body.toList = _ :=
    document_packages "filelists".toList [("xmlns".toList, "http://linux.duke.edu/metadata/filelists".toList)]
      count body.toList
  unfold filelistsXml
  rw [tag, ← List.append_assoc (Xml.Tag.text _), ← filelists_opened]
  simp only [String.toList_append, declaration_line, stopped, List.append_assoc]

/-! ## Characters -/

@[simp] theorem isChars_append (s t : String) : isChars (s ++ t) = (isChars s && isChars t) := by
  rw [isChars, String.toList_append, List.all_append, isChars, isChars]

@[simp] theorem isChars_xmlEscape (s : String) : isChars (xmlEscape s) = isChars s := by
  rw [isChars, xmlEscape_toList, Xml.isChar_escape, isChars]

theorem isChar_of_isDigit {c : Char} (digit : c.isDigit = true) : Xml.isChar c = true := by
  have least : 48 ≤ c.toNat ∧ c.toNat ≤ 57 := by
    simpa [Char.isDigit, UInt32.le_iff_toNat_le] using digit
  have range : 0x20 ≤ c.toNat ∧ c.toNat ≤ 0xD7FF := by omega
  simp [Xml.isChar, range]

@[simp] theorem isChars_toString (n : Nat) : isChars (toString n) = true := by
  have digits : (toString n).toList = Nat.toDigits 10 n := by simp
  rw [isChars, digits, List.all_eq_true]
  intro c mem
  exact isChar_of_isDigit (Nat.isDigit_of_mem_toDigits (by decide) (by decide) mem)

theorem isChars_primary {p : Listed} (digest : isChars p.sha256 = true) :
    isChars p.primary = true ↔ p.info.texts.all isChars = true ∧ isChars p.filename = true := by
  unfold Listed.primary primaryPackage versionTag
  simp only [isChars_append, isChars_xmlEscape, isChars_toString, digest, RpmInfo.texts, List.all_cons, List.all_nil]
  simp only [isChars]
  -- the texts between the fields, as lists of characters
  repeat rw [String.toList_ofList]
  simp +decide only [Bool.and_eq_true, and_true, true_and, and_assoc]

theorem isChars_filelists {p : Listed} (digest : isChars p.sha256 = true)
    (header : p.info.texts.all isChars = true) : isChars p.filelists = true := by
  simp only [RpmInfo.texts, List.all_cons, List.all_nil, Bool.and_true, Bool.and_eq_true] at header
  unfold Listed.filelists filelistsPackage versionTag
  simp only [isChars_append, isChars_xmlEscape, isChars_toString, digest, header]
  simp only [isChars]
  repeat rw [String.toList_ofList]
  decide

/-! ## A file name that cannot be written as it is -/

/-- The first location of a package decides. -/
theorem location_differs {p : Listed} {value : List Char} {attrs more : List Xml.Attr}
    {children others : List Xml.Node} (short : value.length < "Packages/".toList.length + p.filename.toList.length) :
    primaryEntry (.element "package".toList attrs (Xml.indentedNodes "\n    ".toList p.before ++ (blank "\n    " ++
      .element "location".toList (("href".toList, value) :: more) children :: others))) ≠ p.primaryEntry := by
  intro same
  have before : Xml.named "location".toList (Xml.indentedNodes "\n    ".toList p.before) = [] := by
    rw [Xml.named_indentedNodes]
    rfl
  have located := congrArg PrimaryEntry.location same
  simp only [primaryEntry, values, Listed.primaryEntry, Xml.Node.elements, Xml.Node.children, Xml.named_append,
    before, named_blank, List.nil_append, Xml.named_element, if_pos, List.map_cons, Xml.Node.attr,
    List.lookup_cons_self, List.cons.injEq, Option.some.injEq] at located
  rw [located.1, List.length_append] at short
  exact Nat.lt_irrefl _ short

/-- The package that comes next is read with another location, if it is read at all. -/
theorem location_lost {p : Listed} (hex : p.Hex) (unfit : ∃ c ∈ p.filename.toList, Xml.isQuotable c = false)
    {k : Nat} {f : Xml.Frame} {s : List Char} {r : Xml.Reader} {root : Xml.Node}
    (reads : Xml.read (.content k, ⟨[f], none⟩) (p.primary.toList ++ s) = some r)
    (ended : r.root? = some root) : ∃ package others,
      root.elements "package".toList = Xml.named "package".toList f.children ++ package :: others ∧
        primaryEntry package ≠ p.primaryEntry := by
  have indent : ∀ c ∈ "\n    ".toList, Xml.isPlain c = true := List.all_eq_true.mp (by decide)
  obtain ⟨finished, leads⟩ := Xml.leads_of_root? ended
  obtain ⟨k₁, spaced⟩ := content_blank (s := "  ") (by decide) k f [] none
  obtain ⟨k₂, before⟩ :=
    Xml.Content.indented indent p.before 0 Listed.primaryTag.opened [f.add (blank "  ")] none
  simp only [primary_toList hex, List.append_assoc, List.cons_append] at reads
  rw [Xml.read_append_of spaced, Xml.read_startTag primaryTag_valid, Xml.read_append_of before,
    read_location] at reads
  obtain ⟨n, less, value, tag, later, short, added, reads⟩ := Xml.value_shorter unfit reads
  obtain ⟨tag', children, ⟨named, attrs⟩, more, others, rfl⟩ := Xml.extends_of_tag rfl reads finished leads
  have begun : tag = ⟨"location".toList, [("href".toList, value)]⟩ := (Option.some.inj added).symm
  obtain ⟨rest, attrs⟩ := attrs
  rw [begun] at named attrs
  obtain ⟨name', attrs'⟩ := tag'
  obtain rfl : name' = "location".toList := named
  obtain rfl : attrs' = ("href".toList, value) :: rest := attrs.symm
  refine ⟨.element "package".toList Listed.primaryTag.attrs (Xml.indentedNodes "\n    ".toList p.before ++
    (blank "\n    " ++ .element "location".toList (("href".toList, value) :: rest) children :: more)),
    Xml.named "package".toList others, ?_, location_differs (Nat.lt_of_le_of_lt short less)⟩
  simp only [Xml.Frame.add_add, Xml.Frame.element, Xml.Node.elements, Xml.Node.children, Xml.Frame.children_add,
    Xml.named_append, named_blank, List.append_assoc]
  rfl

/-- A name that is not fit to be written as it is is the end of an agreement on the packages. -/
theorem entries_lost {l : List Listed} (hex : ∀ p ∈ l, p.Hex)
    (unfit : ∃ p ∈ l, ∃ c ∈ p.filename.toList, Xml.isQuotable c = false)
    {k : Nat} {f : Xml.Frame} {s : List Char} {r : Xml.Reader} {root : Xml.Node}
    (reads : Xml.read (.content k, ⟨[f], none⟩) (l.flatMap (·.primary.toList) ++ s) = some r)
    (ended : r.root? = some root) : ∃ packages,
      root.elements "package".toList = Xml.named "package".toList f.children ++ packages ∧
        packages.map primaryEntry ≠ l.map Listed.primaryEntry := by
  induction l generalizing k f with
  | nil => simp at unfit
  | cons p l ih =>
    rw [List.forall_mem_cons] at hex
    rw [List.flatMap_cons, List.append_assoc] at reads
    by_cases fit : p.filename.toList.all Xml.isQuotable = true
    · obtain ⟨k', read⟩ := content_primary hex.1 fit k f [] none
      rw [Xml.read_append_of read] at reads
      have unfit' : ∃ p ∈ l, ∃ c ∈ p.filename.toList, Xml.isQuotable c = false := by
        obtain ⟨q, mem, c, there, bad⟩ := unfit
        cases mem with
        | head => simp [List.all_eq_true.mp fit c there] at bad
        | tail _ mem => exact ⟨q, mem, c, there, bad⟩
      obtain ⟨packages, found, differ⟩ := ih hex.2 unfit' reads
      refine ⟨p.primaryNode :: packages, ?_, fun same => differ (List.cons.inj same).2⟩
      rw [found, Xml.Frame.children_add, Xml.named_append, List.append_assoc, Xml.named_append, named_blank,
        Xml.named_append, named_blank]
      rfl
    · have bad : ∃ c ∈ p.filename.toList, Xml.isQuotable c = false := by
        simpa [List.all_eq_true] using fit
      obtain ⟨package, others, found, differs⟩ := location_lost hex.1 bad reads ended
      exact ⟨package :: others, found, fun same => differs (List.cons.inj same).1⟩

/-! ## When the lists are right -/

theorem named_packages {node : Listed → Xml.Node} (l : List Listed)
    (package : ∀ p, (node p).isNamed "package".toList = true) :
    Xml.named "package".toList (blank "\n" ++ l.flatMap fun p => blank "  " ++ ([node p] ++ blank "\n")) =
      l.map node := by
  rw [Xml.named_append, named_blank, List.nil_append]
  induction l with
  | nil => rfl
  | cons p l ih =>
    have single : Xml.named "package".toList [node p] = [node p] := by
      rw [Xml.named, List.filter_singleton, package]
      rfl
    rw [List.flatMap_cons, Xml.named_append, ih, Xml.named_append, Xml.named_append, named_blank, named_blank,
      single]
    rfl

/-- A list that is read as it is meant is right when the number of packages is. -/
theorem lists_iff {E : Type} {text : String} {tag : Xml.Tag} {count : Nat} {l : List Listed}
    {node : Listed → Xml.Node} {entry : Xml.Node → E} {expected : Listed → E}
    (parsed : Xml.parse text.toList = some (.element tag.name tag.attrs
      (blank "\n" ++ l.flatMap fun p => blank "  " ++ ([node p] ++ blank "\n"))))
    (counted : tag.attrs.lookup "packages".toList = some (toString count).toList)
    (package : ∀ p, (node p).isNamed "package".toList = true)
    (entries : ∀ p, entry (node p) = expected p) :
    Lists text entry (l.map expected) ↔ count = l.length := by
  have elements := named_packages l package
  rw [Lists, parsed]
  simp only [Option.some.injEq, exists_eq_left', Xml.Node.attr, counted, Xml.Node.elements, Xml.Node.children,
    elements, List.length_map, List.map_map, String.toList_inj]
  have same : entry ∘ node = expected := funext entries
  rw [same]
  constructor
  · rintro ⟨eq, -⟩
    have digits : ∀ n : Nat, (toString n).toList = Nat.toDigits 10 n := fun n => by simp
    have eq' := congrArg String.toList eq
    rw [digits, digits] at eq'
    exact Str.toDigits_injective eq'
  · intro eq
    exact ⟨by rw [eq], rfl⟩

theorem isChars_body {l : List Listed} {f : Listed → String} :
    (l.flatMap fun p => (f p).toList).all Xml.isChar = l.all fun p => isChars (f p) := by
  induction l with
  | nil => rfl
  | cons p l ih => rw [List.flatMap_cons, List.all_append, ih, List.all_cons, isChars]

/-- Apart from its packages a document has only characters that documents may have. -/
theorem isChars_primaryXml (count : Nat) (body : String) :
    isChars (primaryXml count body) = true ↔ isChars body = true := by
  unfold primaryXml
  simp only [isChars_append, isChars_toString]
  simp only [isChars]
  repeat rw [String.toList_ofList]
  simp +decide only [Bool.and_eq_true, and_true, true_and]

theorem isChars_filelistsXml (count : Nat) (body : String) :
    isChars (filelistsXml count body) = true ↔ isChars body = true := by
  unfold filelistsXml
  simp only [isChars_append, isChars_toString]
  simp only [isChars]
  repeat rw [String.toList_ofList]
  simp +decide only [Bool.and_eq_true, and_true, true_and]

theorem isChars_of_toList {text : String} {s : List Char} (split : text.toList = Xml.declaration ++ s) :
    s.all Xml.isChar = isChars text := by
  have declared : Xml.declaration.all Xml.isChar = true := by decide
  rw [isChars, split, List.all_append, declared, Bool.true_and]

theorem parse_list {tag : Xml.Tag} (valid : tag.Valid) {l : List Listed} {f : Listed → String}
    {node : Listed → Xml.Node} (reads : ∀ p ∈ l, Xml.Content (f p).toList (blank "  " ++ ([node p] ++ blank "\n")))
    (chars : (document tag (l.flatMap fun p => (f p).toList)).all Xml.isChar = true) :
    Xml.parse (Xml.declaration ++ document tag (l.flatMap fun p => (f p).toList)) =
      some (.element tag.name tag.attrs
        (blank "\n" ++ l.flatMap fun p => blank "  " ++ ([node p] ++ blank "\n"))) := by
  have inner := (content_blank (s := "\n") (by decide)).append (Xml.Content.flatMap reads)
  exact Xml.parse_document valid inner (by decide) (by decide) chars

theorem filelists_right {count : Nat} {l : List Listed} {body : String} (hex : ∀ p ∈ l, p.Hex)
    (digests : ∀ p ∈ l, isChars p.sha256 = true) (headers : ∀ p ∈ l, p.info.texts.all isChars = true)
    (joined : body.toList = l.flatMap fun p => p.filelists.toList) :
    Lists (filelistsXml count body) filelistsEntry (l.map Listed.filelistsEntry) ↔ count = l.length := by
  have chars : (document (filelistsRootTag count) body.toList).all Xml.isChar = true := by
    rw [isChars_of_toList (filelistsXml_toList count body), isChars_filelistsXml, isChars, joined, isChars_body,
      List.all_eq_true]
    exact fun p mem => isChars_filelists (digests p mem) (headers p mem)
  have parsed := parse_list (filelistsRootTag_valid count) (fun p mem => content_filelists (hex p mem))
    (joined ▸ chars)
  rw [← joined, ← filelistsXml_toList] at parsed
  exact lists_iff parsed rfl (fun p => rfl) filelistsEntry_filelistsNode

theorem primary_right {count : Nat} {l : List Listed} {body : String} (hex : ∀ p ∈ l, p.Hex)
    (digests : ∀ p ∈ l, isChars p.sha256 = true) (fit : ∀ p ∈ l, p.Fit)
    (joined : body.toList = l.flatMap fun p => p.primary.toList) :
    Lists (primaryXml count body) primaryEntry (l.map Listed.primaryEntry) ↔ count = l.length := by
  have chars : (document (metadataTag count) body.toList).all Xml.isChar = true := by
    rw [isChars_of_toList (primaryXml_toList count body), isChars_primaryXml, isChars, joined, isChars_body,
      List.all_eq_true]
    exact fun p mem => (isChars_primary (digests p mem)).mpr ⟨(fit p mem).header, (fit p mem).filename⟩
  have parsed := parse_list (metadataTag_valid count)
    (fun p mem => content_primary (hex p mem) (fit p mem).quotable) (joined ▸ chars)
  rw [← joined, ← primaryXml_toList] at parsed
  exact lists_iff parsed rfl (fun p => rfl) primaryEntry_primaryNode

/-- Only packages that are fit to be listed are listed right. -/
theorem fit_of_lists {count : Nat} {l : List Listed} {body : String} (hex : ∀ p ∈ l, p.Hex)
    (digests : ∀ p ∈ l, isChars p.sha256 = true) (joined : body.toList = l.flatMap fun p => p.primary.toList)
    (lists : Lists (primaryXml count body) primaryEntry (l.map Listed.primaryEntry)) : ∀ p ∈ l, p.Fit := by
  obtain ⟨root, parsed, -, entries⟩ := lists
  rw [primaryXml_toList, Xml.parse_declaration, Option.ite_none_right_eq_some] at parsed
  obtain ⟨chars, parsed⟩ := parsed
  rw [isChars_of_toList (primaryXml_toList count body), isChars_primaryXml, isChars, joined, isChars_body,
    List.all_eq_true] at chars
  obtain ⟨r, reads, ended⟩ := Option.bind_eq_some_iff.mp parsed
  have quotable : ∀ p ∈ l, p.filename.toList.all Xml.isQuotable = true := by
    by_contra bad
    have unfit : ∃ p ∈ l, ∃ c ∈ p.filename.toList, Xml.isQuotable c = false := by
      simpa [List.all_eq_true] using bad
    have opened := Xml.read_blank (s := "\n".toList) (List.all_eq_true.mp (by decide)) none
    obtain ⟨k, spaced⟩ := content_blank (s := "\n") (by decide) 0 (metadataTag count).opened [] none
    rw [document, Xml.read_append_of opened, Xml.read_rootTag (metadataTag_valid count), List.append_assoc,
      Xml.read_append_of spaced, joined] at reads
    obtain ⟨packages, found, differ⟩ := entries_lost hex unfit reads ended
    rw [Xml.Frame.children_add, Xml.named_append, named_blank] at found
    exact differ ((congrArg _ found).symm.trans entries)
  intro p mem
  obtain ⟨header, filename⟩ := (isChars_primary (digests p mem)).mp (chars p mem)
  exact ⟨header, filename, quotable p mem⟩

/-! ## The regeneration -/

section run

variable {w w' : Disk T} {α : Type}

/-- A package is found as it stands in its directory. -/
theorem readPackage_alone {pool : Pool} {filename : String} {next : Option (PackageOnDisk T) → Proc T α} {value : α}
    (among : Prog.Among (repository T).exec Eq w (.op (.readPackage pool filename) next) w' value) :
    (next ((w.pool pool).find? (·.filename == filename))).Among (repository T).exec Eq w w' value := by
  obtain ⟨r, w₁, w₂, ⟨a, done⟩, rfl, rest⟩ := among.op_inv
  cases done
  exact rest

/-- The bodies of the lists are those of the files that are packages, in their order. -/
theorem rpmBodies_alone {names : List String} {primary filelists : String} {value : Option (String × String)}
    (among : (rpmBodies names (primary, filelists)).Among (repository T).exec Eq w w' value) : w' = w ∧
      ∃ bodies, value = some bodies ∧
        bodies.1.toList = primary.toList ++ (names.filterMap w.listed?).flatMap (·.primary.toList) ∧
        bodies.2.toList = filelists.toList ++ (names.filterMap w.listed?).flatMap (·.filelists.toList) := by
  induction names generalizing primary filelists with
  | nil =>
    obtain ⟨rfl, rfl⟩ := among.ret_inv
    exact ⟨rfl, _, rfl, by simp, by simp⟩
  | cons filename rest ih =>
    have among := readPackage_alone among
    cases found : (w.pool .dnf).find? (·.filename == filename) with
    | none =>
      have skipped : w.listed? filename = none := by simp [Disk.listed?, found]
      rw [found] at among
      rw [List.filterMap_cons_none skipped]
      exact ih among
    | some file =>
      cases parsed : T.parseRpm file.data with
      | none =>
        have skipped : w.listed? filename = none := by simp [Disk.listed?, found, parsed]
        simp only [found, Prog.ret_bind, Option.bind_some, parsed] at among
        rw [List.filterMap_cons_none skipped]
        exact ih among
      | some info =>
        have listed : w.listed? filename =
            some ⟨filename, info, T.sha256 file.data, T.size file.data, file.modified⟩ := by
          simp [Disk.listed?, found, parsed]
        simp only [found, Prog.ret_bind, Option.bind_some, parsed] at among
        have among := readPackage_alone among
        simp only [found, Prog.ret_bind] at among
        have among := readPackage_alone among
        simp only [found, Prog.ret_bind] at among
        have among := readPackage_alone among
        simp only [found, Prog.ret_bind] at among
        obtain ⟨same, bodies, done, joined⟩ := ih among
        refine ⟨same, bodies, done, ?_⟩
        rw [List.filterMap_cons_some listed, List.flatMap_cons, List.flatMap_cons, ← List.append_assoc,
          ← List.append_assoc, ← String.toList_append, ← String.toList_append]
        exact joined

/-- And they are always found when nothing else happens. -/
theorem rpmBodies_runs (w : Disk T) (names : List String) (primary filelists : String) :
    ∃ bodies, (rpmBodies names (primary, filelists)).Among (repository T).exec Eq w w (some bodies) := by
  have reads : ∀ filename, (repository T).exec w (.readPackage .dnf filename)
      ((w.pool .dnf).find? (·.filename == filename)) w := fun filename => ⟨⟨0, true⟩, rfl⟩
  induction names generalizing primary filelists with
  | nil => exact ⟨_, .ret⟩
  | cons filename rest ih =>
    cases found : (w.pool .dnf).find? (·.filename == filename) with
    | none =>
      obtain ⟨bodies, runs⟩ := ih primary filelists
      exact ⟨bodies, .stay (reads filename) (by simpa only [found, Prog.ret_bind, Option.bind_none] using runs)⟩
    | some file =>
      cases parsed : T.parseRpm file.data with
      | none =>
        obtain ⟨bodies, runs⟩ := ih primary filelists
        exact ⟨bodies, .stay (reads filename) (by simpa only [found, Prog.ret_bind, Option.bind_some, parsed] using runs)⟩
      | some info =>
        have again : (repository T).exec w (.readPackage .dnf filename) (some file) w := found ▸ reads filename
        obtain ⟨bodies, runs⟩ := ih _ _
        refine ⟨bodies, .stay again ?_⟩
        simp only [Prog.ret_bind, Option.bind_some, parsed]
        refine .stay again ?_
        simp only [Prog.ret_bind]
        refine .stay again ?_
        simp only [Prog.ret_bind]
        refine .stay again ?_
        simpa only [Prog.ret_bind] using runs

/-- What a regeneration leaves in the lists. -/
theorem generateDnf_alone {written : Bool}
    (among : generateDnfMetadata.Among (repository T).exec Eq w w' written) : ∃ primary filelists : String,
      primary.toList = w.listed.flatMap (·.primary.toList) ∧
      filelists.toList = w.listed.flatMap (·.filelists.toList) ∧
      w'.index .primary = some (T.gzip (T.encode (primaryXml w.rpmFiles.length primary))) ∧
      w'.index .filelists = some (T.gzip (T.encode (filelistsXml w.rpmFiles.length filelists))) := by
  obtain ⟨r, w₁, w₂, ⟨a, done⟩, rfl, among⟩ := among.op_inv
  cases done
  obtain ⟨found, w₂, bodies, among⟩ := Prog.Among.bind_inv (Prog.ret_bind .. ▸ among)
  obtain ⟨rfl, ⟨primary, filelists⟩, rfl, primaryJoined, filelistsJoined⟩ := rpmBodies_alone bodies
  obtain ⟨_, _, w₃, ⟨_, done⟩, rfl, among⟩ := among.op_inv
  cases done
  obtain ⟨_, _, w₄, ⟨_, done⟩, rfl, among⟩ := among.op_inv
  cases done
  obtain ⟨_, _, w₅, ⟨_, done⟩, rfl, among⟩ := among.op_inv
  cases done
  obtain ⟨_, _, w₆, ⟨_, done⟩, rfl, among⟩ := among.op_inv
  cases done
  obtain ⟨rfl, rfl⟩ := among.ret_inv
  refine ⟨primary, filelists, primaryJoined, filelistsJoined, ?_, ?_⟩
  · simp [Function.update_of_ne, Disk.rpmFiles]
  · simp [Disk.rpmFiles]

theorem generateDnf_runs (w : Disk T) : ∃ w', generateDnfMetadata.Among (repository T).exec Eq w w' true := by
  have does : ∀ (v : Disk T) (o : Op T), (repository T).exec v o (execute v o ⟨0, true⟩).1 (execute v o ⟨0, true⟩).2 :=
    fun v o => ⟨⟨0, true⟩, rfl⟩
  obtain ⟨bodies, found⟩ := rpmBodies_runs w w.rpmFiles "" ""
  exact ⟨_, .op (does w (.readDir .dnf)) rfl (.bind .ret (.bind found
    (.op (does _ (.writeIndex .primary _)) rfl (.bind .ret
    (.op (does _ (.writeIndex .filelists _)) rfl (.bind .ret
    (.op (does _ .utcNow) rfl (.bind .ret
    (.op (does _ (.writeRepomd _)) rfl (.bind .ret .ret))))))))))⟩

end run

/-! ## The lists on disk -/

/-- All files are packages exactly if as many packages are listed as there are files. -/
theorem listed_length (w : Disk T) : w.rpmFiles.length = w.listed.length ↔
    ∀ filename ∈ w.rpmFiles, (w.listed? filename).isSome := by
  rw [eq_comm]
  exact List.filterMap_length_eq_length

theorem listed_sha256 (sound : T.Sound) {w : Disk T} {p : Listed} (mem : p ∈ w.listed) :
    p.Hex ∧ isChars p.sha256 = true := by
  obtain ⟨filename, -, found⟩ := List.mem_filterMap.mp mem
  simp only [Disk.listed?, Option.bind_eq_bind, Option.bind_eq_some_iff, pure, Option.some.injEq] at found
  obtain ⟨file, -, info, -, rfl⟩ := found
  have hex : ∀ c ∈ "0123456789abcdef".toList, Xml.isChar c = true := List.all_eq_true.mp (by decide)
  exact ⟨escape_sha256 sound file.data, List.all_eq_true.mpr fun c mem => hex c (sound.sha256 file.data c mem)⟩

theorem lists_index {w w' : Disk T} (sound : T.Sound) {written : Bool}
    (among : generateDnfMetadata.Among (repository T).exec Eq w w' written) : w'.Lists w.listed ↔
      (∀ filename ∈ w.rpmFiles, (w.listed? filename).isSome) ∧ ∀ p ∈ w.listed, p.Fit := by
  obtain ⟨primary, filelists, primaryJoined, filelistsJoined, primaryThere, filelistsThere⟩ := generateDnf_alone among
  have hex : ∀ p ∈ w.listed, p.Hex := fun p mem => (listed_sha256 sound mem).1
  have digests : ∀ p ∈ w.listed, isChars p.sha256 = true := fun p mem => (listed_sha256 sound mem).2
  rw [← listed_length]
  constructor
  · rintro ⟨primaryText, filelistsText, primaryThere', -, primaryLists, -⟩
    have same := sound.encode (sound.gzip (Option.some.inj (primaryThere.symm.trans primaryThere')))
    rw [← same] at primaryLists
    have fit := fit_of_lists hex digests primaryJoined primaryLists
    exact ⟨(primary_right hex digests fit primaryJoined).mp primaryLists, fit⟩
  · rintro ⟨counted, fit⟩
    have headers : ∀ p ∈ w.listed, p.info.texts.all isChars = true := fun p mem => (fit p mem).header
    exact ⟨_, _, primaryThere, filelistsThere, (primary_right hex digests fit primaryJoined).mpr counted,
      (filelists_right hex digests headers filelistsJoined).mpr counted⟩

theorem all_fit_iff (w : Disk T) :
    ((∀ filename ∈ w.rpmFiles, (w.listed? filename).isSome) ∧ ∀ p ∈ w.listed, p.Fit) ↔
      ∀ filename ∈ w.rpmFiles, ∃ p, w.listed? filename = some p ∧ p.Fit := by
  constructor
  · rintro ⟨parsed, fit⟩ filename mem
    obtain ⟨p, found⟩ := Option.isSome_iff_exists.mp (parsed filename mem)
    exact ⟨p, found, fit p (List.mem_filterMap.mpr ⟨filename, mem, found⟩)⟩
  · intro all
    refine ⟨fun filename mem => ?_, fun p mem => ?_⟩
    · obtain ⟨p, found, -⟩ := all filename mem
      exact Option.isSome_iff_exists.mpr ⟨p, found⟩
    · obtain ⟨filename, there, found⟩ := List.mem_filterMap.mp mem
      obtain ⟨q, found', fit⟩ := all filename there
      exact Option.some.inj (found'.symm.trans found) ▸ fit

/-- A regeneration comes to its end.  Its lists are right exactly if every `.rpm` file is a package
    with a header and a name that are fit to be listed. -/
theorem dnf_lists_iff (sound : T.Sound) (w : Disk T) :
    (∃ w', generateDnfMetadata.Among (repository T).exec Eq w w' true) ∧
      ∀ w' written, generateDnfMetadata.Among (repository T).exec Eq w w' written →
        (w'.Lists w.listed ↔ ∀ filename ∈ w.rpmFiles, ∃ p, w.listed? filename = some p ∧ p.Fit) :=
  ⟨generateDnf_runs w, fun _ _ among => (lists_index sound among).trans (all_fit_iff w)⟩

namespace Small

/-- The header of a package, with characters that have to be escaped. -/
def agentInfo : RpmInfo where
  name := "agent"
  version := "2.6.11"
  release := "1.el9"
  epoch := 0
  arch := "x86_64"
  summary := "Patches & \"reboots\""
  description := "Runs where <host> is 'healthy'"
  url := "/agent?arch=x86_64&release=el9"
  buildTime := 0
  size := 1
  archiveSize := 1

/-- A file without content is not a package; digests have a digit for each character. -/
def hexTools : Tools where
  Bytes := List Char
  encode := String.toList
  size := List.length
  md5 _ := ""
  sha1 _ := ""
  sha256 data := .ofList (data.map fun c => Nat.digitChar (c.toNat % 16))
  gzip := ('z' :: ·)
  parseDebControl _ := none
  parseRpm data := if data.isEmpty then none else some agentInfo

theorem hexTools_sound : hexTools.Sound where
  encode _ _ same := String.toList_inj.mp same
  gzip _ _ same := (List.cons.inj same).2
  sha256 (data : List Char) c mem := by
    have digits : ∀ n < 16, Nat.digitChar n ∈ "0123456789abcdef".toList := by decide
    have mem' : c ∈ data.map fun c => Nat.digitChar (c.toNat % 16) :=
      (congrArg (c ∈ ·) String.toList_ofList).mp mem
    obtain ⟨d, -, rfl⟩ := List.mem_map.mp mem'
    exact digits _ (Nat.mod_lt _ (by decide))

/-- A directory with one file. -/
def directory (data : List Char) : Disk hexTools where
  pool _ := [⟨"agent.rpm", data, 0⟩]
  index _ := none
  release _ := none
  repomd := none

theorem mem_directory {data : List Char} {filename : String} :
    filename ∈ (directory data).rpmFiles ↔ filename = "agent.rpm" := by
  have only : (((directory data).pool .dnf).map (·.filename)).filter isRpm = ["agent.rpm"] := by
    show List.filter isRpm ["agent.rpm"] = _
    decide
  rw [Disk.rpmFiles, only, sortNames, List.mem_mergeSort, List.mem_singleton]

end Small

theorem dnf_lists_iff_agent :
    ∃ w', generateDnfMetadata.Among (repository Small.hexTools).exec Eq (Small.directory ['x']) w' true ∧
      w'.Lists (Small.directory ['x']).listed := by
  obtain ⟨⟨w', run⟩, right⟩ := dnf_lists_iff Small.hexTools_sound (Small.directory ['x'])
  refine ⟨w', run, (right w' true run).mpr fun filename mem => ?_⟩
  obtain rfl := Small.mem_directory.mp mem
  exact ⟨⟨"agent.rpm", Small.agentInfo, _, _, _⟩, rfl, ⟨by decide, by decide, by decide⟩⟩

/-- A file that is not a package, as a download that was cut off leaves it, is counted. -/
theorem dnf_lists_miscount : ¬ ∀ (T : Tools), T.Sound → ∀ (w w' : Disk T) (written : Bool),
    generateDnfMetadata.Among (repository T).exec Eq w w' written → w'.Lists w.listed := by
  intro right
  obtain ⟨w', run⟩ := generateDnf_runs (Small.directory [])
  have lists := right _ Small.hexTools_sound _ w' true run
  have parsed := ((lists_index Small.hexTools_sound run).mp lists).1 "agent.rpm" (Small.mem_directory.mpr rfl)
  cases parsed

end PatchManager.Generators
