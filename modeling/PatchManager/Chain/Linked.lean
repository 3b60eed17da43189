import Mathlib.Data.List.Basic

/-! # Hash chains

A list of entries, each of which stores the hash of the entry before it and its own hash.
`LinkedFrom` says that both are what they should be all along the list; `restamp` makes them
so.

Main results:

* `linkedFrom_append`: a chain is linked when its parts are.
* `linkedFrom_map`, `linkedFrom_replace`: changing entries under their stored hashes leaves
  the chain linked exactly when their digests stay the same.
* `linkedFrom_restamp`, `restamp_of_linked`: stamping links every list and leaves linked ones.
-/

namespace PatchManager.Chain

/-- What a chain stores with its entries and how it computes the hash of one. -/
structure Links (Entry Hash : Type) where
  prev : Entry → Hash
  hash : Entry → Hash
  digest : Entry → Hash

variable {Entry Hash : Type} (L : Links Entry Hash)

/-- Every entry stores the hash of the one before it, `expected` for the first, and its own
    digest. -/
def LinkedFrom : Hash → List Entry → Prop
  | _, [] => True
  | expected, e :: rest => L.prev e = expected ∧ L.hash e = L.digest e ∧ LinkedFrom (L.hash e) rest

/-- The hash the next entry has to store. -/
def endHash : Hash → List Entry → Hash
  | start, [] => start
  | _, e :: rest => endHash (L.hash e) rest

variable {L} {start : Hash} {entries more : List Entry} {e e' : Entry}

theorem endHash_eq_getLast : endHash L start entries = (entries.getLast?.map L.hash).getD start := by
  induction entries generalizing start with
  | nil => rfl
  | cons e rest ih =>
    rw [endHash, ih]
    cases rest <;> simp only [List.getLast?_cons, List.getLast?_nil, Option.map_some, Option.map_none,
      Option.getD_some, Option.getD_none]

theorem linkedFrom_append :
    LinkedFrom L start (entries ++ more) ↔
      LinkedFrom L start entries ∧ LinkedFrom L (endHash L start entries) more := by
  induction entries generalizing start with
  | nil => simp [LinkedFrom, endHash]
  | cons e rest ih => simp only [List.cons_append, LinkedFrom, endHash, ih, and_assoc]

/-- Where every entry has its own digest, linking is about each entry and the ones before it. -/
theorem linkedFrom_iff_split (sealed : ∀ e, L.hash e = L.digest e) :
    LinkedFrom L start entries ↔
      ∀ before e after, entries = before ++ e :: after → L.prev e = endHash L start before := by
  constructor
  · rintro linked before e after rfl
    exact (linkedFrom_append.mp linked).2.1
  · intro split
    induction entries generalizing start with
    | nil => trivial
    | cons e rest ih =>
      refine ⟨split [] e rest rfl, sealed e, ih fun before e' after eq => ?_⟩
      exact split (e :: before) e' after (by rw [eq]; rfl)

/-- A correctly sealed entry at the end. -/
theorem linkedFrom_snoc (linked : LinkedFrom L start entries)
    (prev : L.prev e = endHash L start entries) (sealed : L.hash e = L.digest e) :
    LinkedFrom L start (entries ++ [e]) :=
  linkedFrom_append.mpr ⟨linked, prev, sealed, trivial⟩

/-- Entries changed under their stored hashes: the chain stays linked exactly when it does
    not see the changes. -/
theorem linkedFrom_map {f : Entry → Entry} (prev : ∀ e, L.prev (f e) = L.prev e)
    (hash : ∀ e, L.hash (f e) = L.hash e) (linked : LinkedFrom L start entries) :
    LinkedFrom L start (entries.map f) ↔ ∀ e ∈ entries, L.digest (f e) = L.digest e := by
  induction entries generalizing start with
  | nil => simp [LinkedFrom]
  | cons e rest ih =>
    obtain ⟨link, sealed, after⟩ := linked
    simp only [List.map_cons, LinkedFrom, prev, hash, link, sealed, List.forall_mem_cons, true_and]
    rw [sealed] at after
    rw [ih after, eq_comm]

/-- One entry changed under its stored hashes. -/
theorem linkedFrom_replace (linked : LinkedFrom L start (entries ++ e :: more))
    (prev : L.prev e' = L.prev e) (hash : L.hash e' = L.hash e) :
    LinkedFrom L start (entries ++ e' :: more) ↔ L.digest e' = L.digest e := by
  obtain ⟨before, link, sealed, after⟩ := linkedFrom_append.mp linked
  rw [linkedFrom_append]
  simp only [LinkedFrom, prev, hash, link, sealed, true_and]
  constructor
  · rintro ⟨-, same, -⟩
    exact same.symm
  · intro same
    exact ⟨before, same.symm, by rwa [sealed] at after⟩

/-- Stamps every entry with its hashes anew, the first after `start`. -/
def restamp (stamp : Hash → Entry → Entry) (L : Links Entry Hash) : Hash → List Entry → List Entry
  | _, [] => []
  | start, e :: rest => stamp start e :: restamp stamp L (L.hash (stamp start e)) rest

/-- What has been stamped anew is linked. -/
theorem linkedFrom_restamp {stamp : Hash → Entry → Entry} (prev : ∀ h e, L.prev (stamp h e) = h)
    (sealed : ∀ h e, L.hash (stamp h e) = L.digest (stamp h e)) :
    LinkedFrom L start (restamp stamp L start entries) := by
  induction entries generalizing start with
  | nil => exact trivial
  | cons e rest ih => exact ⟨prev start e, sealed start e, ih⟩

/-- Stamping a longer list goes on where the shorter one ends. -/
theorem restamp_append {stamp : Hash → Entry → Entry} :
    restamp stamp L start (entries ++ more) = restamp stamp L start entries ++
      restamp stamp L (endHash L start (restamp stamp L start entries)) more := by
  induction entries generalizing start with
  | nil => rfl
  | cons e rest ih => simp only [List.cons_append, restamp, endHash, ih]

/-- Stamping changes nothing where the stamps are right. -/
theorem restamp_of_linked {stamp : Hash → Entry → Entry}
    (stamped : ∀ e, L.hash e = L.digest e → stamp (L.prev e) e = e)
    (linked : LinkedFrom L start entries) : restamp stamp L start entries = entries := by
  induction entries generalizing start with
  | nil => rfl
  | cons e rest ih =>
    obtain ⟨rfl, digest, after⟩ := linked
    simp only [restamp, stamped e digest, ih after]

/-- What stamping leaves alone in one entry, it leaves alone in all. -/
theorem map_restamp {stamp : Hash → Entry → Entry} {Column : Type} {f : Entry → Column}
    (keeps : ∀ h e, f (stamp h e) = f e) :
    (restamp stamp L start entries).map f = entries.map f := by
  induction entries generalizing start with
  | nil => rfl
  | cons e rest ih => simp only [restamp, List.map_cons, keeps, ih]

end PatchManager.Chain
