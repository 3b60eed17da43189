import PatchManager.Xml.Content

/-! # What a reading comes to

However a document goes on, what has been read of it stays where it is.

Main results:

* `leads_of_read`: the elements that are open at some point are found in the root, with what they
  have there at their beginning.
* `extends_of_tag`: so is an element of which the tag has been begun.
* `value_shorter`: a text with a quote, an ampersand or an opening bracket, written between quotes
  as it is, is read as a shorter one.
-/

namespace PatchManager.Xml

/-! ## What is open is found in the root -/

/-- The element of the innermost frame is completed, and so are those around it in turn. -/
def Extends (f : Frame) : List Frame → Node → Prop
  | [], root => ∃ more, root = f.element more
  | g :: rest, root => ∃ more, Extends (g.add [f.element more]) rest root

theorem Extends.of_add {f : Frame} {l : List Node} {rest : List Frame} {root : Node}
    (later : Extends (f.add l) rest root) : Extends f rest root := by
  cases rest <;>
  · obtain ⟨more, later⟩ := later
    exact ⟨l ++ more, by rwa [Frame.element_add] at later⟩

/-- The tree goes on to become `root`. -/
def Builder.Leads : Builder → Node → Prop
  | ⟨[], done⟩, root => ∀ other, done = some other → other = root
  | ⟨f :: rest, _⟩, root => Extends f rest root

theorem Builder.leads_of_put {b b' : Builder} {node root : Node} (put : b.put node = some b')
    (later : b'.Leads root) : b.Leads root := by
  obtain ⟨stack, done⟩ := b
  cases stack with
  | nil =>
    cases done with
    | none => simp [Leads]
    | some other => cases put
  | cons f rest =>
    cases put
    exact Extends.of_add later

/-- The element of the innermost frame ends with what it has. -/
theorem Extends.of_put {f : Frame} {rest : List Frame} {done : Option Node} {b : Builder} {root : Node}
    (put : Builder.put ⟨rest, done⟩ (f.element []) = some b) (later : b.Leads root) : Extends f rest root := by
  cases rest with
  | nil =>
    cases done with
    | some other => cases put
    | none =>
      cases put
      exact ⟨[], (later _ rfl).symm⟩
  | cons g rest =>
    cases put
    exact ⟨[], later⟩

theorem Builder.leads_of_place {b b' : Builder} {token : Token} {root : Node}
    (placed : b.place token = some b') (later : b'.Leads root) : b.Leads root := by
  obtain ⟨stack, done⟩ := b
  cases token with
  | text s literal =>
    cases stack with
    | nil =>
      simp only [place, Option.ite_none_right_eq_some, Option.some.injEq] at placed
      obtain ⟨-, rfl⟩ := placed
      exact later
    | cons f rest =>
      cases placed
      exact Extends.of_add later
  | leaf tag => cases stack <;> exact leads_of_put placed later
  | start tag =>
    cases stack with
    | nil =>
      cases done with
      | none => simp [Leads]
      | some other => cases placed
    | cons f rest =>
      cases placed
      obtain ⟨more, later⟩ := later
      exact later.of_add
  | stop name =>
    cases stack with
    | nil => cases placed
    | cons f rest =>
      simp only [place, Option.ite_none_right_eq_some] at placed
      exact Extends.of_put placed.2 later

theorem leads_of_feed {r r' : Reader} {c : Char} {root : Node} (fed : feed r c = some r')
    (later : r'.2.Leads root) : r.2.Leads root := by
  obtain ⟨⟨mode, token⟩, stepped, fed⟩ := Option.bind_eq_some_iff.mp fed
  cases token with
  | none =>
    cases fed
    exact later
  | some token =>
    obtain ⟨b, placed, rfl⟩ := Option.map_eq_some_iff.mp fed
    exact Builder.leads_of_place placed later

theorem leads_of_read {r r' : Reader} {s : List Char} {root : Node} (reads : read r s = some r')
    (later : r'.2.Leads root) : r.2.Leads root := by
  induction s generalizing r with
  | nil =>
    cases reads
    exact later
  | cons c s ih =>
    obtain ⟨r₁, fed, reads⟩ := Option.bind_eq_some_iff.mp reads
    exact leads_of_feed fed (ih reads)

/-- When a document has ended, its reading has led to its root. -/
theorem leads_of_root? {r : Reader} {root : Node} (ended : r.root? = some root) :
    r.1.tag? = none ∧ r.2.Leads root := by
  obtain ⟨mode, stack, done⟩ := r
  cases mode with
  | content brackets =>
    cases stack with
    | nil =>
      refine ⟨rfl, fun other there => ?_⟩
      exact Option.some.inj (there.symm.trans ended)
    | cons f rest => cases ended
  | _ => cases ended

/-! ## A tag that has been begun -/

/-- The tag has been read further. -/
def Tag.Grows (tag tag' : Tag) : Prop := tag'.name = tag.name ∧ tag.attrs <+: tag'.attrs

theorem Tag.Grows.refl (tag : Tag) : tag.Grows tag := ⟨rfl, List.prefix_rfl⟩

theorem Tag.Grows.trans {t₁ t₂ t₃ : Tag} (first : t₁.Grows t₂) (second : t₂.Grows t₃) : t₁.Grows t₃ :=
  ⟨second.1.trans first.1, first.2.trans second.2⟩

theorem Tag.grows_add {tag tag' : Tag} {key value : List Char} (added : tag.add key value = some tag') :
    tag.Grows tag' := by
  simp only [Tag.add, Option.ite_none_left_eq_some, Option.some.injEq] at added
  obtain ⟨-, rfl⟩ := added
  exact ⟨rfl, List.prefix_append ..⟩

/-- The tag goes on, or ends here. -/
theorem step_tag {mode mode' : Mode} {c : Char} {token : Option Token} {tag : Tag}
    (stepped : step mode c = some (mode', token)) (begun : mode.tag? = some tag) :
    (∃ tag', mode'.tag? = some tag' ∧ tag.Grows tag' ∧ token = none) ∨
      mode'.tag? = none ∧ (token = some (.start tag) ∨ token = some (.leaf tag)) := by
  have same (later : mode'.tag? = some tag ∧ token = none) :
      ∃ tag', mode'.tag? = some tag' ∧ tag.Grows tag' ∧ token = none :=
    ⟨tag, later.1, .refl tag, later.2⟩
  cases mode with
  | tag tag spaced =>
    cases begun
    simp only [step, Tag.within] at stepped
    split_ifs at stepped <;> cases stepped
    · exact .inl (same ⟨rfl, rfl⟩)
    · exact .inl (same ⟨rfl, rfl⟩)
    · exact .inr ⟨rfl, .inl rfl⟩
    · exact .inl (same ⟨rfl, rfl⟩)
  | slash =>
    cases begun
    simp only [step] at stepped
    split_ifs at stepped
    cases stepped
    exact .inr ⟨rfl, .inr rfl⟩
  | value tag key quote value =>
    cases begun
    simp only [step] at stepped
    split_ifs at stepped
    · obtain ⟨tag', added, eq⟩ := Option.map_eq_some_iff.mp stepped
      cases eq
      exact .inl ⟨tag', rfl, Tag.grows_add added, rfl⟩
    all_goals
      cases stepped
      exact .inl (same ⟨rfl, rfl⟩)
  | valueReference tag key quote value name =>
    cases begun
    simp only [step] at stepped
    split_ifs at stepped
    · obtain ⟨d, -, eq⟩ := Option.map_eq_some_iff.mp stepped
      cases eq
      exact .inl (same ⟨rfl, rfl⟩)
    · cases stepped
      exact .inl (same ⟨rfl, rfl⟩)
  | key | equals | quote =>
    cases begun
    simp only [step] at stepped
    split_ifs at stepped <;> cases stepped <;> exact .inl (same ⟨rfl, rfl⟩)
  | _ => cases begun

/-- An element whose tag has been begun is found in the root, after what stands before it. -/
theorem extends_of_tag {mode : Mode} {tag : Tag} {f : Frame} {rest : List Frame} {done : Option Node}
    {s : List Char} {r : Reader} {root : Node} (begun : mode.tag? = some tag)
    (reads : read (mode, ⟨f :: rest, done⟩) s = some r) (finished : r.1.tag? = none)
    (later : r.2.Leads root) :
    ∃ tag' children, tag.Grows tag' ∧
      Extends (f.add [.element tag'.name tag'.attrs children]) rest root := by
  induction s generalizing mode tag with
  | nil =>
    cases reads
    rw [begun] at finished
    cases finished
  | cons c s ih =>
    obtain ⟨r₁, fed, reads⟩ := Option.bind_eq_some_iff.mp reads
    obtain ⟨⟨mode', token⟩, stepped, fed⟩ := Option.bind_eq_some_iff.mp fed
    obtain ⟨tag', still, grown, rfl⟩ | ⟨-, rfl | rfl⟩ := step_tag stepped begun
    · cases fed
      obtain ⟨tag'', children, more, found⟩ := ih still reads
      exact ⟨tag'', children, grown.trans more, found⟩
    · cases fed
      obtain ⟨more, found⟩ := leads_of_read reads later
      exact ⟨tag, _, .refl tag, found⟩
    · cases fed
      exact ⟨tag, _, .refl tag, leads_of_read reads later⟩

/-! ## Values written as they are -/

/-- The value ends somewhere, with at most `n` characters. -/
def Closes (tag : Tag) (key : List Char) (b : Builder) (n : Nat) (r : Reader) : Prop :=
  ∃ value tag' s, value.length ≤ n ∧ tag.add key value = some tag' ∧
    read (.tag tag' false, b) s = some r

theorem Closes.mono {tag : Tag} {key : List Char} {b : Builder} {n m : Nat} {r : Reader}
    (closes : Closes tag key b n r) (le : n ≤ m) : Closes tag key b m r := by
  obtain ⟨value, tag', s, short, added, reads⟩ := closes
  exact ⟨value, tag', s, Nat.le_trans short le, added, reads⟩

section value

variable {tag : Tag} {key : List Char} {b : Builder} {post : List Char} {r : Reader}

theorem closes_quote {value s : List Char}
    (reads : read (.value tag key '"' value, b) ('"' :: s) = some r) :
    Closes tag key b value.length r := by
  obtain ⟨r₁, fed, reads⟩ := Option.bind_eq_some_iff.mp reads
  obtain ⟨⟨mode, token⟩, stepped, fed⟩ := Option.bind_eq_some_iff.mp fed
  simp only [step, if_pos] at stepped
  obtain ⟨tag', added, eq⟩ := Option.map_eq_some_iff.mp stepped
  cases eq
  cases fed
  exact ⟨value, tag', s, Nat.le_refl _, added, reads⟩

/-- A character that is neither the quote nor special is kept. -/
theorem read_value_cons {value s : List Char} {c : Char} (quote : c ≠ '"') (lt : c ≠ '<') (amp : c ≠ '&') :
    read (.value tag key '"' value, b) (c :: s) = read (.value tag key '"' (value ++ [c]), b) s := by
  simp [feed, step, quote, lt, amp]

theorem read_value_amp {value s : List Char} :
    read (.value tag key '"' value, b) ('&' :: s) = read (.valueReference tag key '"' value [], b) s := rfl

theorem read_value_lt {value s : List Char} : read (.value tag key '"' value, b) ('<' :: s) = none := rfl

/-- A reference goes on, or ends and stands for one character. -/
theorem read_reference_cons {value name s : List Char} {c : Char}
    (reads : read (.valueReference tag key '"' value name, b) (c :: s) = some r) :
    isReferenceChar c = true ∧ read (.valueReference tag key '"' value (name ++ [c]), b) s = some r ∨
      c = ';' ∧ ∃ d, read (.value tag key '"' (value ++ [d]), b) s = some r := by
  obtain ⟨r₁, fed, reads⟩ := Option.bind_eq_some_iff.mp reads
  obtain ⟨⟨mode, token⟩, stepped, fed⟩ := Option.bind_eq_some_iff.mp fed
  simp only [step] at stepped
  split_ifs at stepped with ends goesOn
  · obtain ⟨d, -, eq⟩ := Option.map_eq_some_iff.mp stepped
    cases eq
    cases fed
    exact .inr ⟨ends, d, reads⟩
  · cases stepped
    cases fed
    exact .inl ⟨goesOn, reads⟩

theorem closes_of_read (s : List Char) :
    (∀ value, read (.value tag key '"' value, b) (s ++ '"' :: post) = some r →
      Closes tag key b (value.length + s.length) r) ∧
    ∀ value name, read (.valueReference tag key '"' value name, b) (s ++ '"' :: post) = some r →
      Closes tag key b (value.length + s.length) r := by
  induction s with
  | nil =>
    refine ⟨fun value reads => closes_quote reads, fun value name reads => ?_⟩
    obtain ⟨referenceChar, -⟩ | ⟨eq, -⟩ := read_reference_cons reads
    · exact absurd referenceChar (by decide)
    · cases eq
  | cons c s ih =>
    constructor
    · intro value reads
      rw [List.cons_append] at reads
      by_cases quote : c = '"'
      · subst quote
        exact (closes_quote reads).mono (Nat.le_add_right ..)
      by_cases lt : c = '<'
      · subst lt
        cases reads
      by_cases amp : c = '&'
      · subst amp
        exact (ih.2 value [] reads).mono (by simp)
      rw [read_value_cons quote lt amp] at reads
      exact (ih.1 _ reads).mono (by simp; omega)
    · intro value name reads
      obtain ⟨-, reads⟩ | ⟨-, d, reads⟩ := read_reference_cons reads
      · exact (ih.2 value _ reads).mono (by simp)
      · exact (ih.1 _ reads).mono (by simp; omega)

/-- Characters that stand for themselves between double quotes. -/
def isQuotable (c : Char) : Bool := c != '"' && c != '<' && c != '&'

/-- A text that is not fit to be written as it is becomes shorter. -/
theorem value_shorter {s value : List Char} (unfit : ∃ c ∈ s, isQuotable c = false)
    (reads : read (.value tag key '"' value, b) (s ++ '"' :: post) = some r) :
    ∃ n < value.length + s.length, Closes tag key b n r := by
  induction s generalizing value with
  | nil => simp at unfit
  | cons c s ih =>
    rw [List.cons_append] at reads
    by_cases quote : c = '"'
    · subst quote
      exact ⟨_, by simp, closes_quote reads⟩
    by_cases lt : c = '<'
    · subst lt
      cases reads
    by_cases amp : c = '&'
    · subst amp
      exact ⟨_, by simp, (closes_of_read s).2 value [] reads⟩
    have unfit' : ∃ c ∈ s, isQuotable c = false := by
      simpa [isQuotable, quote, lt, amp] using unfit
    rw [read_value_cons quote lt amp] at reads
    obtain ⟨n, less, closes⟩ := ih unfit' reads
    exact ⟨n, by simp at less ⊢; omega, closes⟩

theorem value_quotable {s value : List Char} (fit : ∀ c ∈ s, isQuotable c = true) :
    read (.value tag key '"' value, b) s = some (.value tag key '"' (value ++ s), b) := by
  induction s generalizing value with
  | nil => simp
  | cons c s ih =>
    rw [List.forall_mem_cons] at fit
    have kept := fit.1
    simp only [isQuotable, Bool.and_eq_true, bne_iff_ne] at kept
    rw [read_value_cons kept.1.1 kept.1.2 kept.2, ih fit.2, List.append_assoc, List.singleton_append]

end value

end PatchManager.Xml
