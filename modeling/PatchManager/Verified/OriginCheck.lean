import PatchManager.Text.Str
import PatchManager.Web.Tickets
import Mathlib

/-! # The origin check is exact

Both parsers read the same origin from a text and differ in the case of the host alone
(`readOrigin`).  What they read has no separator and no white space in it, so its canonical
text is read back (`Clean.read_canonical`), and two origins have the same canonical text
exactly when they name the same site.

Main result:

* `originCheck_exact`: what a list allows, the canonical text read back, and the list derived
  from the callback URL.
-/

namespace PatchManager

open PatchManager.Str

/-! ## Separators -/

theorem rsplitOnce_append {c : Char} {after : List Char} (clean : c ∉ after) (before : List Char) :
    rsplitOnce c (before ++ c :: after) = some (before, after) := by
  have last : ((before ++ c :: after).reverse.takeWhile (· ≠ c)).reverse = after := by
    rw [List.reverse_append, List.reverse_cons, List.append_assoc,
      List.takeWhile_append_of_pos (by intro d mem; simpa using fun eq : d = c => clean (eq ▸ List.mem_reverse.mp mem))]
    simp
  rw [rsplitOnce, if_pos (by simp), last]
  simp [show before.length + (after.length + 1) - after.length - 1 = before.length by omega]

theorem rsplitOnce_of_notMem {c : Char} {s : List Char} (missing : c ∉ s) : rsplitOnce c s = none :=
  if_neg missing

theorem rsplitOnce_some {c : Char} {s before after : List Char} (found : rsplitOnce c s = some (before, after)) :
    ∀ d ∈ before, d ∈ s := by
  obtain ⟨-, eq⟩ := Option.ite_none_right_eq_some.mp found
  obtain ⟨rfl, -⟩ := Prod.mk.inj (Option.some.inj eq)
  exact fun d => List.mem_of_mem_take

/-- The scheme ends at the first colon. -/
theorem splitOnce_scheme {scheme : List Char} (clean : ':' ∉ scheme) (rest : List Char) :
    splitOnce "://".toList (scheme ++ "://".toList ++ rest) = some (scheme, rest) := by
  induction scheme with
  | nil => simp [splitOnce]
  | cons c scheme ih =>
    have other : ':' ≠ c := fun eq => clean (eq ▸ List.mem_cons_self)
    have later := ih fun mem => clean (List.mem_cons_of_mem c mem)
    simp only [List.cons_append, splitOnce]
    rw [if_neg (by simp [other]), later]
    rfl

theorem trimEndMatches_eq_self {p : Char → Bool} {s : List Char} (clean : ∀ c ∈ s, p c = false) :
    trimEndMatches p s = s := by
  have kept : s.reverse.dropWhile p = s.reverse := by
    cases eq : s.reverse with
    | nil => rfl
    | cons c rest =>
      have mem : c ∈ s := List.mem_reverse.mp (eq ▸ List.mem_cons_self)
      exact List.dropWhile_cons_of_neg (by simp [clean c mem])
  rw [trimEndMatches, kept, List.reverse_reverse]

theorem mem_trimEndMatches {p : Char → Bool} {s : List Char} {c : Char} (mem : c ∈ trimEndMatches p s) : c ∈ s := by
  have inner := List.mem_reverse.mp mem
  exact List.mem_reverse.mp ((List.dropWhile_suffix p).subset inner)

theorem parseUnsigned_bound {bound value : Nat} {s : List Char} (read : parseUnsigned bound s = some value) :
    value < bound := by
  rw [parseUnsigned] at read
  obtain ⟨-, read⟩ := Option.ite_none_left_eq_some.mp read
  simp only [Option.bind_eq_bind, Option.bind_eq_some_iff, Option.ite_none_right_eq_some, Option.some.injEq] at read
  obtain ⟨values, -, small, rfl⟩ := read
  exact small

/-! ## What both parsers read -/

def readScheme (scheme : List Char) : Option (List Char) :=
  if toAsciiLowercase scheme = "http".toList ∨ toAsciiLowercase scheme = "https".toList then
    some (toAsciiLowercase scheme)
  else none

def readHost (host : List Char) : Option (List Char) :=
  if trim host = [] ∨ (trim host).any isWhitespace ∨ ':' ∈ trim host then none else some (trim host)

def readPort (portStr : Option (List Char)) : Option (Option Nat) :=
  match portStr with
  | some p => (parseUnsigned 65536 p).map some
  | none => some none

def authority (rest : List Char) : List Char := rest.takeWhile fun c => !(c == '/' || c == '?' || c == '#')

theorem takeWhile_authority (rest : List Char) :
    (rest.takeWhile fun c => !(c == '/' || c == '?' || c == '#')) = authority rest := rfl

def readAuthority (authority : List Char) : Option (List Char × Option Nat) :=
  (splitAuthority authority).bind fun (host, portStr) =>
    (readHost host).bind fun host => (readPort portStr).map fun port => (host, port)

/-- The origin with the host as it is written. -/
def readOrigin (value : List Char) : Option Origin :=
  (splitOnce "://".toList (trimEndMatches (· == '/') (trim value))).bind fun (scheme, rest) =>
    (readScheme scheme).bind fun scheme =>
      (readAuthority (authority rest)).map fun (host, port) => { scheme, host, port }

def Origin.lowered (origin : Origin) : Origin := { origin with host := toAsciiLowercase origin.host }

theorem readScheme_of_refused {scheme : List Char}
    (refused : toAsciiLowercase scheme ≠ "http".toList ∧ toAsciiLowercase scheme ≠ "https".toList) :
    readScheme scheme = none :=
  if_neg (not_or.mpr refused)

theorem readScheme_of_served {scheme : List Char}
    (served : ¬(toAsciiLowercase scheme ≠ "http".toList ∧ toAsciiLowercase scheme ≠ "https".toList)) :
    readScheme scheme = some (toAsciiLowercase scheme) :=
  if_pos (by simpa only [not_and_or, not_not] using served)

/-- Both parsers go through the authority in the same way, whatever they make of it. -/
theorem readAuthority_map {α : Type} (authority : List Char) (result : List Char → Option Nat → α) :
    ((splitAuthority authority).bind fun (host, portStr) =>
      if trim host = [] ∨ (trim host).any isWhitespace ∨ ':' ∈ trim host then none
      else match portStr with
        | some p => ((parseUnsigned 65536 p).map some).bind fun port => some (result (trim host) port)
        | none => some (result (trim host) none)) =
    (readAuthority authority).map fun (host, port) => result host port := by
  rw [readAuthority]
  cases splitAuthority authority with
  | none => rfl
  | some parts =>
    obtain ⟨host, portStr⟩ := parts
    by_cases bad : trim host = [] ∨ (trim host).any isWhitespace ∨ ':' ∈ trim host
    · simp only [Option.bind_some, readHost, if_pos bad, Option.bind_none, Option.map_none]
    · simp only [Option.bind_some, readHost, if_neg bad]
      cases portStr with
      | none => rfl
      | some p => cases parsed : parseUnsigned 65536 p <;> simp [readPort, parsed]

theorem parseOriginHeader_eq (value : List Char) : parseOriginHeader value = (readOrigin value).map Origin.lowered := by
  rw [parseOriginHeader, readOrigin]
  generalize trimEndMatches (· == '/') (trim value) = s
  by_cases empty : s = []
  · subst empty
    rfl
  cases splitOnce "://".toList s with
  | none => simp only [if_neg empty, Option.bind_eq_bind, Option.bind_none, Option.map_none]
  | some parts =>
    obtain ⟨scheme, rest⟩ := parts
    by_cases refused : toAsciiLowercase scheme ≠ "http".toList ∧ toAsciiLowercase scheme ≠ "https".toList
    · simp only [if_neg empty, Option.bind_eq_bind, Option.bind_some, if_pos refused, readScheme_of_refused refused,
        Option.bind_none, Option.map_none]
    simp only [if_neg empty, Option.bind_eq_bind, Option.bind_some, if_neg refused, readScheme_of_served refused,
      takeWhile_authority, Option.map_map]
    generalize authority rest = authority
    by_cases missing : authority = []
    · subst missing
      rfl
    rw [if_neg missing]
    exact readAuthority_map authority fun host port =>
      ({ scheme := toAsciiLowercase scheme, host := toAsciiLowercase host, port } : Origin)

theorem derivedOrigin_eq (value : List Char) : derivedOrigin value = (readOrigin value).map Origin.canonical := by
  rw [derivedOrigin, readOrigin]
  cases splitOnce "://".toList (trimEndMatches (· == '/') (trim value)) with
  | none => rfl
  | some parts =>
    obtain ⟨scheme, rest⟩ := parts
    by_cases empty : scheme = []
    · subst empty
      rfl
    by_cases refused : toAsciiLowercase scheme ≠ "http".toList ∧ toAsciiLowercase scheme ≠ "https".toList
    · simp only [if_neg empty, Option.bind_eq_bind, Option.bind_some, if_pos refused, readScheme_of_refused refused,
        Option.bind_none, Option.map_none]
    simp only [if_neg empty, Option.bind_eq_bind, Option.bind_some, if_neg refused, readScheme_of_served refused,
      takeWhile_authority, Option.map_map]
    generalize authority rest = authority
    by_cases missing : authority = []
    · subst missing
      rfl
    rw [if_neg missing]
    exact readAuthority_map authority fun host port =>
      Origin.canonical { scheme := toAsciiLowercase scheme, host, port }

/-! ## The canonical text -/

/-- Both copies of the parser read such an origin, before the host is lower-cased. -/
structure Origin.Clean (origin : Origin) : Prop where
  served : origin.scheme = "http".toList ∨ origin.scheme = "https".toList
  named : origin.host ≠ []
  separate : ∀ c ∈ origin.host, isWhitespace c = false ∧ c ∉ ":/?#".toList
  port : ∀ p ∈ origin.port, p < 65536

theorem splitAuthority_some {text host : List Char} {portStr : Option (List Char)}
    (split : splitAuthority text = some (host, portStr)) : ∀ c ∈ host, c ∈ text := by
  rw [splitAuthority] at split
  cases found : rsplitOnce ':' text with
  | none =>
    rw [found] at split
    obtain ⟨rfl, -⟩ := Prod.mk.inj (Option.some.inj split)
    exact fun _ mem => mem
  | some parts =>
    obtain ⟨before, after⟩ := parts
    rw [found] at split
    obtain ⟨-, eq⟩ := Option.ite_none_left_eq_some.mp split
    obtain ⟨rfl, -⟩ := Prod.mk.inj (Option.some.inj eq)
    exact rsplitOnce_some found

theorem readOrigin_clean {value : List Char} {origin : Origin} (read : readOrigin value = some origin) :
    origin.Clean := by
  simp only [readOrigin, readAuthority, Option.bind_eq_some_iff, Option.map_eq_some_iff, Prod.exists,
    Prod.mk.injEq] at read
  obtain ⟨text, rest, -, scheme, known, host, port, ⟨name, portStr, split, text', good, port', parsed, rfl, rfl⟩, rfl⟩ :=
    read
  obtain ⟨served, scheme'⟩ := Option.ite_none_right_eq_some.mp known
  obtain ⟨sound, host'⟩ := Option.ite_none_left_eq_some.mp good
  obtain rfl := Option.some.inj scheme'
  obtain rfl := Option.some.inj host'
  simp only [not_or, List.any_eq_true, not_exists, not_and, Bool.not_eq_true] at sound
  obtain ⟨named, blank, colon⟩ := sound
  refine ⟨served, named, fun c mem => ⟨blank c mem, ?_⟩, ?_⟩
  · have within := splitAuthority_some split c ((trim_isInfix name).subset mem)
    have stops := List.mem_takeWhile_imp within
    have other : c ≠ ':' := fun eq => colon (eq ▸ mem)
    simp only [Bool.not_eq_true', Bool.or_eq_false_iff, beq_eq_false_iff_ne] at stops
    simp [stops, other]
  · cases portStr with
    | none =>
      cases parsed
      simp
    | some p =>
      obtain ⟨value, number, rfl⟩ := Option.map_eq_some_iff.mp parsed
      simpa using parseUnsigned_bound number

/-- The port that the canonical text shows. -/
def Origin.shownPort (origin : Origin) : Option Nat :=
  if origin.port = defaultPort origin.scheme then none else origin.port

def Origin.effectivePort (origin : Origin) : Option Nat := origin.port <|> defaultPort origin.scheme

def portText : Option Nat → List Char
  | none => []
  | some p => ':' :: Nat.toDigits 10 p

theorem Origin.canonical_eq (origin : Origin) :
    origin.canonical = origin.scheme ++ "://".toList ++ (origin.host ++ portText origin.shownPort) := by
  rw [canonical, shownPort]
  cases origin.port with
  | none => simp [portText]
  | some p =>
    cases defaultPort origin.scheme with
    | none => simp [portText]
    | some d => by_cases same : p = d <;> simp [portText, same]

theorem Origin.shownPort_eq (origin : Origin) :
    origin.shownPort = if origin.effectivePort = defaultPort origin.scheme then none else origin.effectivePort := by
  rw [shownPort, effectivePort]
  cases origin.port with
  | none => simp
  | some p => simp

theorem Origin.effectivePort_eq (origin : Origin) :
    origin.effectivePort = (origin.shownPort <|> defaultPort origin.scheme) := by
  rw [shownPort, effectivePort]
  split
  case isTrue same => simp [same]
  case isFalse => rfl

/-- The two name the same scheme, host and port. -/
def Origin.SameSite (a b : Origin) : Prop :=
  a.scheme = b.scheme ∧ a.host = b.host ∧ a.effectivePort = b.effectivePort

theorem Origin.SameSite.canonical_eq {a b : Origin} (same : a.SameSite b) : a.canonical = b.canonical := by
  obtain ⟨scheme, host, port⟩ := same
  rw [a.canonical_eq, b.canonical_eq, a.shownPort_eq, b.shownPort_eq, scheme, host, port]

/-! ## Reading it back -/

theorem mem_portText {port : Option Nat} {c : Char} (mem : c ∈ portText port) : c = ':' ∨ c.isDigit = true := by
  cases port with
  | none => cases mem
  | some p =>
    refine (List.mem_cons.mp mem).imp_right fun digit => ?_
    exact Nat.isDigit_of_mem_toDigits (by decide) (by decide) digit

theorem colon_notMem_digits (n : Nat) : ':' ∉ Nat.toDigits 10 n := by
  intro mem
  have digit := Nat.isDigit_of_mem_toDigits (by decide) (by decide) mem
  revert digit
  decide

/-- A digit or a letter is no separator. -/
theorem separate_of_toNat {c : Char} (range : 48 ≤ c.toNat ∧ c.toNat ≤ 57 ∨ 97 ≤ c.toNat ∧ c.toNat ≤ 122) :
    isWhitespace c = false ∧ c ∉ ":/?#".toList := by
  constructor
  · simp only [isWhitespace, Bool.or_eq_false_iff, Bool.and_eq_false_iff, decide_eq_false_iff_not, beq_eq_false_iff_ne]
    omega
  · intro mem
    simp only [String.reduceToList, List.mem_cons, List.not_mem_nil, or_false] at mem
    obtain rfl | rfl | rfl | rfl := mem <;> revert range <;> decide

theorem isDigit_separate {c : Char} (digit : c.isDigit = true) : isWhitespace c = false ∧ c ∉ ":/?#".toList :=
  separate_of_toNat (.inl (Char.isDigit_iff_toNat.mp digit))

theorem toNat_toLower (c : Char) :
    c.toLower.toNat = if 65 ≤ c.toNat ∧ c.toNat ≤ 90 then c.toNat + 32 else c.toNat := by
  have upper : c.isUpper = true ↔ 65 ≤ c.toNat ∧ c.toNat ≤ 90 := by
    simp [Char.isUpper, UInt32.le_iff_toNat_le]
  by_cases is : c.isUpper = true
  · have range := upper.mp is
    rw [Char.toLower_eq_of_isUpper is, if_pos range, Char.toNat_ofNat, if_pos (.inl (by omega))]
  · rw [Char.toLower_eq_of_not_isUpper is, if_neg (mt upper.mpr is)]

theorem toLower_separate {c : Char} (separate : isWhitespace c = false ∧ c ∉ ":/?#".toList) :
    isWhitespace c.toLower = false ∧ c.toLower ∉ ":/?#".toList := by
  have value := toNat_toLower c
  split at value
  case isTrue upper => exact separate_of_toNat (by omega)
  case isFalse =>
    rw [Char.toNat_inj.mp value]
    exact separate

theorem toAsciiLowercase_twice (s : List Char) : toAsciiLowercase (toAsciiLowercase s) = toAsciiLowercase s := by
  simp [toAsciiLowercase]

theorem Origin.Clean.splitAuthority_shown {origin : Origin} (clean : origin.Clean) (port : Option Nat) :
    splitAuthority (origin.host ++ portText port) = some (origin.host, port.map (Nat.toDigits 10)) := by
  have missing : ':' ∉ origin.host := fun mem => (clean.separate _ mem).2 (by decide)
  rw [splitAuthority]
  cases port with
  | none => rw [portText, List.append_nil, rsplitOnce_of_notMem missing]; rfl
  | some p =>
    rw [portText, rsplitOnce_append (colon_notMem_digits p)]
    exact if_neg missing

theorem Origin.Clean.readHost {origin : Origin} (clean : origin.Clean) : readHost origin.host = some origin.host := by
  have whole : trim origin.host = origin.host :=
    trim_eq_self (fun c head => (clean.separate c (List.mem_of_head? head)).1)
      fun c last => (clean.separate c (List.mem_of_getLast? last)).1
  have good : ¬(origin.host = [] ∨ origin.host.any isWhitespace ∨ ':' ∈ origin.host) := by
    simp only [not_or, List.any_eq_true, not_exists, not_and, Bool.not_eq_true]
    exact ⟨clean.named, fun c mem => (clean.separate c mem).1, fun mem => (clean.separate _ mem).2 (by decide)⟩
  rw [PatchManager.readHost, whole, if_neg good]

theorem readPort_shown {port : Option Nat} (small : ∀ p ∈ port, p < 65536) :
    readPort (port.map (Nat.toDigits 10)) = some port := by
  cases port with
  | none => rfl
  | some p => simp [readPort, parseUnsigned_toDigits (small p rfl)]

theorem Origin.Clean.readScheme {origin : Origin} (clean : origin.Clean) :
    readScheme origin.scheme = some origin.scheme := by
  obtain scheme | scheme := clean.served <;> rw [scheme] <;> decide

theorem Origin.Clean.shown_small {origin : Origin} (clean : origin.Clean) : ∀ p ∈ origin.shownPort, p < 65536 := by
  intro p shown
  rw [shownPort] at shown
  split at shown
  case isTrue => cases shown
  case isFalse => exact clean.port p shown

theorem Origin.Clean.scheme_separate {origin : Origin} (clean : origin.Clean) :
    ∀ c ∈ origin.scheme ++ "://".toList, isWhitespace c = false := by
  refine List.all_iff_forall_prop.mp ?_
  obtain scheme | scheme := clean.served <;> rw [scheme] <;> decide

/-- The canonical text of what has been read is read as the same origin, without a default port. -/
theorem Origin.Clean.read_canonical {origin : Origin} (clean : origin.Clean) :
    readOrigin origin.canonical = some { origin with port := origin.shownPort } := by
  have rest : ∀ c ∈ origin.host ++ portText origin.shownPort, isWhitespace c = false ∧ c ∉ "/?#".toList := by
    intro c mem
    obtain host | port := List.mem_append.mp mem
    · exact (clean.separate c host).imp_right fun other mem => other (List.mem_cons_of_mem _ mem)
    · obtain rfl | digit := mem_portText port
      · decide
      · exact (isDigit_separate digit).imp_right fun other mem => other (List.mem_cons_of_mem _ mem)
  have blanks : ∀ c ∈ origin.canonical, isWhitespace c = false := by
    intro c mem
    rw [origin.canonical_eq] at mem
    exact (List.mem_append.mp mem).elim (clean.scheme_separate c) fun mem => (rest c mem).1
  have trimmed : trim origin.canonical = origin.canonical :=
    trim_eq_self (fun c head => blanks c (List.mem_of_head? head)) fun c last => blanks c (List.mem_of_getLast? last)
  have slashes : trimEndMatches (· == '/') origin.canonical = origin.canonical := by
    refine List.rdropWhile_eq_self_iff.mpr fun nonempty => ?_
    have filled : origin.host ++ portText origin.shownPort ≠ [] := fun nil => clean.named (List.append_eq_nil_iff.mp nil).1
    have last : origin.canonical.getLast nonempty ∈ origin.host ++ portText origin.shownPort := by
      simp only [origin.canonical_eq, List.getLast_append_of_ne_nil _ filled]
      exact List.getLast_mem filled
    have other : origin.canonical.getLast nonempty ≠ '/' := fun slash => (rest _ last).2 (slash ▸ List.mem_cons_self)
    simpa using other
  have colon : ':' ∉ origin.scheme := by
    obtain scheme | scheme := clean.served <;> rw [scheme] <;> decide
  have whole : authority (origin.host ++ portText origin.shownPort) = origin.host ++ portText origin.shownPort := by
    refine List.takeWhile_eq_self_iff.mpr fun c mem => ?_
    simpa [and_assoc] using (rest c mem).2
  rw [readOrigin, trimmed, slashes, origin.canonical_eq, splitOnce_scheme colon, Option.bind_some]
  simp only [clean.readScheme, Option.bind_some, whole, readAuthority, clean.splitAuthority_shown, clean.readHost,
    readPort_shown clean.shown_small, Option.map_some]

theorem Origin.Clean.lowered {origin : Origin} (clean : origin.Clean) : origin.lowered.Clean where
  served := clean.served
  named := by simpa [Origin.lowered, toAsciiLowercase] using clean.named
  separate := by
    intro c mem
    obtain ⟨d, mem', rfl⟩ := List.mem_map.mp mem
    exact toLower_separate (clean.separate d mem')
  port := clean.port

theorem Origin.lowered_lowered (origin : Origin) : origin.lowered.lowered = origin.lowered := by
  simp [Origin.lowered, toAsciiLowercase_twice]

/-- Two texts are the same exactly when the origins are. -/
theorem Origin.Clean.canonical_eq_iff {a b : Origin} (cleanA : a.Clean) (cleanB : b.Clean) :
    a.canonical = b.canonical ↔ a.SameSite b := by
  refine ⟨fun eq => ?_, Origin.SameSite.canonical_eq⟩
  have read := cleanA.read_canonical
  rw [eq, cleanB.read_canonical] at read
  obtain ⟨scheme, host, port⟩ := Origin.mk.inj (Option.some.inj read)
  refine ⟨scheme.symm, host.symm, ?_⟩
  rw [a.effectivePort_eq, b.effectivePort_eq, scheme, port]

/-- Leaving out a default port changes neither the port nor the text. -/
theorem Origin.shown_sameSite (origin : Origin) : Origin.SameSite { origin with port := origin.shownPort } origin :=
  ⟨rfl, rfl, origin.effectivePort_eq.symm⟩

theorem mem_parseOriginHeader {value : List Char} {origin : Origin} (parsed : origin ∈ parseOriginHeader value) :
    origin.Clean ∧ origin.lowered = origin := by
  rw [Option.mem_def, parseOriginHeader_eq] at parsed
  obtain ⟨raw, read, rfl⟩ := Option.map_eq_some_iff.mp parsed
  exact ⟨(readOrigin_clean read).lowered, raw.lowered_lowered⟩

/-- The canonical text of an origin allows its site and no other. -/
theorem isOriginAllowed_canonical {raw incoming : Origin} (clean : raw.Clean) (incomingClean : incoming.Clean) :
    isOriginAllowed incoming [raw.canonical] = true ↔ raw.lowered.SameSite incoming := by
  have parsed : parseOriginHeader raw.canonical = some { raw.lowered with port := raw.shownPort } := by
    rw [parseOriginHeader_eq, clean.read_canonical]
    rfl
  have text : Origin.canonical { raw.lowered with port := raw.shownPort } = raw.lowered.canonical :=
    raw.lowered.shown_sameSite.canonical_eq
  simp only [isOriginAllowed, List.any_cons, List.any_nil, Bool.or_false, parsed, Option.any_some, decide_eq_true_eq, text]
  exact clean.lowered.canonical_eq_iff incomingClean

theorem isOriginAllowed_iff {incoming : Origin} (clean : incoming.Clean) (allowlist : List (List Char)) :
    isOriginAllowed incoming allowlist = true ↔
      ∃ entry ∈ allowlist, ∃ listed ∈ parseOriginHeader entry, listed.SameSite incoming := by
  simp only [isOriginAllowed, List.any_eq_true, Option.any_eq_true, decide_eq_true_eq]
  refine exists_congr fun entry => and_congr_right fun _ => exists_congr fun listed => ?_
  exact and_congr_right fun parsed => (mem_parseOriginHeader parsed).1.canonical_eq_iff clean

/-- A list accepts a header exactly when both parse and name one site; a canonical text keeps
    its meaning; and the derived list allows the site of the callback URL and no other. -/
theorem originCheck_exact :
    (∀ (header : List Char) (allowlist : List (List Char)),
      (∃ origin ∈ parseOriginHeader header, isOriginAllowed origin allowlist = true) ↔
        ∃ origin ∈ parseOriginHeader header, ∃ entry ∈ allowlist, ∃ listed ∈ parseOriginHeader entry,
          listed.SameSite origin) ∧
    (∀ (text : List Char), ∀ origin ∈ parseOriginHeader text,
      (parseOriginHeader origin.canonical).map Origin.canonical = some origin.canonical) ∧
    ∀ url : List Char, (deriveAllowedOrigins url ≠ [] ↔ (parseOriginHeader url).isSome) ∧
      ∀ site ∈ parseOriginHeader url, ∀ (header : List Char), ∀ incoming ∈ parseOriginHeader header,
        isOriginAllowed incoming (deriveAllowedOrigins url) = true ↔ site.SameSite incoming := by
  refine ⟨fun header allowlist => ?_, fun text origin parsed => ?_, fun url => ⟨?_, ?_⟩⟩
  · refine exists_congr fun origin => and_congr_right fun parsed => ?_
    exact isOriginAllowed_iff (mem_parseOriginHeader parsed).1 allowlist
  · obtain ⟨clean, low⟩ := mem_parseOriginHeader parsed
    rw [parseOriginHeader_eq, clean.read_canonical, Option.map_some, Option.map_some]
    have shown : Origin.lowered { origin with port := origin.shownPort } = { origin with port := origin.shownPort } :=
      congrArg (fun o : Origin => { o with port := origin.shownPort }) low
    rw [shown, origin.shown_sameSite.canonical_eq]
  · rw [deriveAllowedOrigins, derivedOrigin_eq, parseOriginHeader_eq]
    cases readOrigin url <;> simp
  · intro site parsed header incoming read
    rw [Option.mem_def, parseOriginHeader_eq] at parsed
    obtain ⟨raw, origin, rfl⟩ := Option.map_eq_some_iff.mp parsed
    rw [deriveAllowedOrigins, derivedOrigin_eq, origin]
    exact isOriginAllowed_canonical (readOrigin_clean origin) (mem_parseOriginHeader read).1

end PatchManager
