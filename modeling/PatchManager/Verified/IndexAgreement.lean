import PatchManager.Conc.Published
import PatchManager.Repo.Generators

/-! # The top-level indexes against what they describe

A regeneration writes the lists of the packages and then the file that gives their digests and
sizes.  Nothing orders two regenerations, so one can publish digests of lists that the other has
just replaced.

Main results:

* `keeps_contract`: every task publishes digests of what it has itself read or written last, and
  publishes after every list it writes.
* `agrees_of_finished`: in a run in which no list is changed between a task's last access and its
  publication, the top-level indexes agree with the lists whenever all tasks are over.
-/

namespace PatchManager.Generators

open PatchManager.Conc

variable {T : Tools} {α β : Type}

/-! ## What the indexes say -/

/-- The lists of a `Release` are those of the files. -/
structure Release.Describes (T : Tools) (release : Release) (packages packagesGz : Option T.Bytes) : Prop where
  md5Sum : release.md5Sum = hashLines T.md5 (filesToHash packages packagesGz)
  sha1 : release.sha1 = hashLines T.sha1 (filesToHash packages packagesGz)
  sha256 : release.sha256 = hashLines T.sha256 (filesToHash packages packagesGz)

/-- The entry has the digests and sizes of the file and of the text compressed in it. -/
def RepomdData.Describes (T : Tools) (entry : RepomdData) (file : Option T.Bytes) : Prop :=
  ∃ xml, file = some (T.gzip xml) ∧
    entry.checksum = T.sha256 (T.gzip xml) ∧ entry.size = T.size (T.gzip xml) ∧
    entry.openChecksum = T.sha256 xml ∧ entry.openSize = T.size xml

/-- The top-level indexes on disk have the digests and sizes of the files on disk. -/
structure Disk.Agrees (w : Disk T) : Prop where
  release : ∀ suite release, w.release suite = some release →
    release.Describes T (w.index (.packages suite)) (w.index (.packagesGz suite))
  repomd : ∀ repomd, w.repomd = some repomd →
    repomd.primary.Describes T (w.index .primary) ∧ repomd.filelists.Describes T (w.index .filelists)

inductive Top where
  | release (suite : String)
  | repomd

inductive Summary where
  | release (release : Release)
  | repomd (repomd : Repomd)

def Top.describes (T : Tools) : Top → Summary → (IndexFile → Option T.Bytes) → Prop
  | .release suite, .release published, c =>
    published.Describes T (c (.packages suite)) (c (.packagesGz suite))
  | .repomd, .repomd published, c =>
    published.primary.Describes T (c .primary) ∧ published.filelists.Describes T (c .filelists)
  | _, _, _ => False

def Top.parts : Top → IndexFile → Prop
  | .release suite, file => file = .packages suite ∨ file = .packagesGz suite
  | .repomd, file => file = .primary ∨ file = .filelists

def Op.learns : (o : Op T) → o.Resp → IndexFile → Option (Option T.Bytes)
  | .readIndex file, content, asked => if file = asked then some content else none
  | .writeIndex file data, _, asked => if file = asked then some (some data) else none
  | _, _, _ => none

def Op.writes : Op T → IndexFile → Prop
  | .writeIndex file _, written => file = written
  | _, _ => False

def Op.publishes : Op T → Option (Top × Summary)
  | .writeRelease suite release => some (.release suite, .release release)
  | .writeRepomd repomd => some (.repomd, .repomd repomd)
  | _ => none

/-- The lists are the files, and `Release` and `repomd.xml` the summaries of them. -/
def indexes (T : Tools) : Publication (Disk T) (Op T) Op.Resp where
  File := IndexFile
  Content := Option T.Bytes
  Top := Top
  Summary := Summary
  content := Disk.index
  top w
    | .release suite => (w.release suite).map .release
    | .repomd => w.repomd.map .repomd
  parts := Top.parts
  describes := Top.describes T
  learns := Op.learns
  writes := Op.writes
  publishes := Op.publishes

theorem agrees_iff_consistent {w : Disk T} : w.Agrees ↔ ∀ X, (indexes T).Consistent w X := by
  constructor
  · intro agrees X summary there
    cases X with
    | release suite =>
      obtain ⟨release, present, rfl⟩ := Option.map_eq_some_iff.mp there
      exact agrees.release suite release present
    | repomd =>
      obtain ⟨repomd, present, rfl⟩ := Option.map_eq_some_iff.mp there
      exact agrees.repomd repomd present
  · intro consistent
    refine ⟨fun suite release present => ?_, fun repomd present => ?_⟩
    · exact consistent (.release suite) (.release release) (by simp [indexes, present])
    · exact consistent .repomd (.repomd repomd) (by simp [indexes, present])

theorem indexes_sound (T : Tools) : (indexes T).Sound (repository T) where
  restricts {X summary c c'} same describes := by
    cases X with
    | release suite =>
      cases summary with
      | repomd repomd => exact describes
      | release release =>
        have first : c (.packages suite) = c' (.packages suite) := same _ (.inl rfl)
        have second : c (.packagesGz suite) = c' (.packagesGz suite) := same _ (.inr rfl)
        simpa only [indexes, Top.describes, first, second] using describes
    | repomd =>
      cases summary with
      | release release => exact describes
      | repomd repomd =>
        have first : c .primary = c' .primary := same _ (.inl rfl)
        have second : c .filelists = c' .filelists := same _ (.inr rfl)
        simpa only [indexes, Top.describes, first, second] using describes
  learns {w w' o r f v} exec learned := by
    obtain ⟨a, executed⟩ := exec
    cases o with
    | readIndex file =>
      cases executed
      simp only [indexes, Op.learns] at learned
      split at learned
      · rename_i same
        cases learned
        exact congrArg w.index same.symm
      · cases learned
    | writeIndex file data =>
      cases executed
      simp only [indexes, Op.learns] at learned
      split at learned
      · rename_i same
        cases learned
        simp [indexes, ← same]
      · cases learned
    | _ => cases learned
  unwritten {w w' o r f} exec unwritten := by
    obtain ⟨a, executed⟩ := exec
    cases o with
    | writeIndex file data =>
      cases executed
      exact Function.update_of_ne (fun same => unwritten same.symm) ..
    | _ => cases executed; rfl
  published {w w' o r X summary} exec publishes := by
    obtain ⟨a, executed⟩ := exec
    cases o with
    | writeRelease suite release =>
      cases executed
      cases publishes
      exact ⟨by simp [indexes], fun f => rfl⟩
    | writeRepomd repomd =>
      cases executed
      cases publishes
      exact ⟨rfl, fun f => rfl⟩
    | _ => cases publishes
  unpublished {w w' o r X} exec unpublished := by
    obtain ⟨a, executed⟩ := exec
    cases o with
    | writeRelease suite release =>
      cases executed
      cases X with
      | release other =>
        have ne : other ≠ suite := by
          rintro rfl
          exact unpublished _ rfl
        simp [indexes, Function.update_of_ne ne]
      | repomd => rfl
    | writeRepomd repomd =>
      cases executed
      cases X with
      | release other => rfl
      | repomd => exact absurd rfl (unpublished _)
    | _ => cases executed; rfl
  others {s t l} step none := by
    cases step with
    | op => exact absurd rfl (none _ _ _)
    | enter called => cases called; exact ⟨rfl, rfl⟩
    | drift moved =>
      obtain ⟨pool, rfl⟩ := moved
      exact ⟨rfl, rfl⟩
    | _ => exact ⟨rfl, rfl⟩
  lasts f := ⟨rfl, rfl⟩

/-! ## What a task knows and owes -/

abbrev Knowledge (T : Tools) := (indexes T).Knowledge

section learn

variable {σ : Knowledge T} {X : Top} {o : Op T} {file asked : IndexFile}

/-- Operations that neither write a list nor publish. -/
def Op.IsPlain (o : Op T) : Prop := o.publishes = none ∧ ∀ f, ¬ o.writes f

theorem owes_plain (plain : o.IsPlain) {r : o.Resp} :
    ((indexes T).learn σ o r).owes X ↔ σ.owes X := by
  have unpublished : ∀ summary, o.publishes ≠ some (X, summary) := by simp [plain.1]
  have unwritten : ¬ ∃ f, X.parts f ∧ o.writes f := fun ⟨f, _, writes⟩ => plain.2 f writes
  exact ⟨fun owes => owes.2.resolve_right unwritten, fun owes => ⟨unpublished, .inl owes⟩⟩

theorem owes_written {data : T.Bytes} (owes : ((indexes T).learn σ (.writeIndex file data) ()).owes X) :
    σ.owes X ∨ X.parts file := by
  obtain ⟨-, owed | ⟨f, part, rfl⟩⟩ := owes
  · exact .inl owed
  · exact .inr part

theorem owes_published {Y : Top} {summary : Summary} {r : o.Resp} (publishes : o.publishes = some (Y, summary))
    (unwritten : ∀ f, ¬ o.writes f) (owes : ((indexes T).learn σ o r).owes X) : X ≠ Y ∧ σ.owes X := by
  obtain ⟨unpaid, owed | ⟨f, _, writes⟩⟩ := owes
  · refine ⟨?_, owed⟩
    rintro rfl
    exact unpaid summary publishes
  · exact absurd writes (unwritten f)

theorem seen_read {content : Option T.Bytes} :
    ((indexes T).learn σ (.readIndex file) content).seen file = some content := by
  simp [Publication.learn, indexes, Op.learns]

theorem seen_written {data : T.Bytes} :
    ((indexes T).learn σ (.writeIndex file data) ()).seen file = some (some data) := by
  simp [Publication.learn, indexes, Op.learns]

/-- An operation that tells nothing of the file. -/
theorem seen_still {r : o.Resp} (silent : o.learns r asked = none) :
    ((indexes T).learn σ o r).seen asked = σ.seen asked := by
  simp only [Publication.learn, indexes, silent, Option.none_or]

end learn

/-! ## Every program keeps the contract -/

/-- The program keeps the contract and ends without debts, if it starts without. -/
def Pays (p : Proc T α) : Prop :=
  ∀ σ : Knowledge T, (∀ X, ¬ σ.owes X) →
    p.Along ((indexes T).contract (Fn T)) (fun σ' _ => ∀ X, ¬ σ'.owes X) σ

theorem Pays.ret (value : α) : Pays (.ret value : Proc T α) := fun _ free => free

theorem Pays.bind {p : Proc T α} {rest : α → Proc T β} (first : Pays p) (second : ∀ a, Pays (rest a)) :
    Pays (p.bind rest) := fun σ free => (first σ free).bind fun σ' a free' => second a σ' free'

theorem guar_of_plain {o : Op T} {σ : Knowledge T} (plain : o.publishes = none) :
    ((indexes T).contract (Fn T)).guar σ o := by
  intro X summary publishes
  rw [show (indexes T).publishes o = none from plain] at publishes
  cases publishes

theorem Pays.op {o : Op T} {next : o.Resp → Proc T α} (plain : o.IsPlain) (rest : ∀ r, Pays (next r)) :
    Pays (.op o next) := fun _ free =>
  ⟨guar_of_plain plain.1, fun r _ => rest r _ fun X owes => free X ((owes_plain plain).mp owes)⟩

/-- Reading packages, the clock and signatures are plain. -/
theorem isPlain {o : Op T} (publishes : o.publishes = none) (writes : ∀ f, ¬ o.writes f) : o.IsPlain :=
  ⟨publishes, writes⟩

theorem packagesContent_pays (names : List String) (content : String) :
    Pays (packagesContent names content : Proc T _) := by
  induction names generalizing content with
  | nil => exact .ret _
  | cons filename rest ih =>
    refine .op (isPlain rfl fun _ => id) fun first => ?_
    simp only [Prog.ret_bind]
    split
    · exact ih content
    · refine .op (isPlain rfl fun _ => id) fun again => ?_
      simp only [Prog.ret_bind]
      split
      · exact .ret _
      · exact ih _

theorem rpmBodies_pays (names : List String) (bodies : String × String) :
    Pays (rpmBodies names bodies : Proc T _) := by
  induction names generalizing bodies with
  | nil => exact .ret _
  | cons filename rest ih =>
    obtain ⟨primary, filelists⟩ := bodies
    refine .op (isPlain rfl fun _ => id) fun parsed => ?_
    simp only [Prog.ret_bind]
    split
    · exact ih _
    · -- three more reads, each of which can end the regeneration
      refine .op (isPlain rfl fun _ => id) fun digested => ?_
      simp only [Prog.ret_bind]
      split
      · refine .op (isPlain rfl fun _ => id) fun measured => ?_
        simp only [Prog.ret_bind]
        split
        · refine .op (isPlain rfl fun _ => id) fun dated => ?_
          simp only [Prog.ret_bind]
          split
          · exact ih _
          · exact .ret _
        · exact .ret _
      · exact .ret _

theorem part_release {X : Top} {suite : String}
    (part : X.parts (.packages suite) ∨ X.parts (.packagesGz suite)) : X = .release suite := by
  cases X with
  | release other =>
    obtain (same | same) | same | same := part <;> cases same
    · rfl
    · rfl
  | repomd => obtain (same | same) | same | same := part <;> cases same

theorem part_repomd {X : Top} (part : X.parts .primary ∨ X.parts .filelists) : X = .repomd := by
  cases X with
  | release suite => obtain (same | same) | same | same := part <;> cases same
  | repomd => rfl

/-- The digests of `Release` are those of the lists as the task has just read them. -/
theorem writeAptIndexes_pays (suite : String) (packages packagesGz : T.Bytes) :
    Pays (do
      perform (.writeIndex (.packages suite) packages)
      perform (.writeIndex (.packagesGz suite) packagesGz)
      let release ← generateAptRelease suite
      perform (.writeRelease suite release)
      let _ ← perform (.signRelease suite false)
      let _ ← perform (.signRelease suite true)
      return true : Proc T Bool) := by
  intro σ free
  refine ⟨guar_of_plain rfl, fun _ _ => ⟨guar_of_plain rfl, fun _ _ => ⟨guar_of_plain rfl,
    fun date _ => ⟨guar_of_plain rfl, fun read _ => ⟨guar_of_plain rfl, fun readGz _ => ⟨?_,
      fun _ _ => ⟨guar_of_plain rfl, fun _ _ => ⟨guar_of_plain rfl, fun _ _ => ?_⟩⟩⟩⟩⟩⟩⟩⟩
  · intro X summary publishes
    cases publishes
    refine ⟨fun f : IndexFile => match f with
      | .packages _ => read
      | _ => readGz, ?_, ⟨rfl, rfl, rfl⟩⟩
    rintro f (rfl | rfl)
    · exact (seen_still (by simp [Op.learns])).trans seen_read
    · exact seen_read
  · intro X owes
    -- back from the signatures to the publication, and from there to the two lists
    have signed := (owes_plain (isPlain rfl fun _ => id)).mp
      ((owes_plain (isPlain rfl fun _ => id)).mp owes)
    obtain ⟨ne, owed⟩ := owes_published rfl (fun _ => id) signed
    have read := (owes_plain (isPlain rfl fun _ => id)).mp
      ((owes_plain (isPlain rfl fun _ => id)).mp ((owes_plain (isPlain rfl fun _ => id)).mp owed))
    rcases owes_written read with before | part
    · rcases owes_written before with before | part
      · exact free X before
      · exact ne (part_release (.inl part))
    · exact ne (part_release (.inr part))

theorem generateAptMetadata_pays (suite : String) : Pays (generateAptMetadata suite : Proc T Bool) := by
  refine .op (isPlain rfl fun _ => id) fun names => ?_
  refine (packagesContent_pays _ _).bind fun content => ?_
  cases content with
  | none => exact .ret _
  | some content => exact writeAptIndexes_pays suite _ _

theorem regenerateSuites_pays (suites : List String) : Pays (regenerateSuites suites : Proc T Unit) := by
  induction suites with
  | nil => exact .ret _
  | cons suite rest ih => exact (generateAptMetadata_pays suite).bind fun _ => ih

/-- The digests of `repomd.xml` are those of the lists the task has just written. -/
theorem writeDnfIndexes_pays (primary filelists : T.Bytes) :
    Pays (do
      perform (.writeIndex .primary (T.gzip primary))
      perform (.writeIndex .filelists (T.gzip filelists))
      let now ← perform .utcNow
      let timestamp := now / microsPerSecond
      perform (.writeRepomd
        { revision := timestamp
          primary := repomdData primary "repodata/primary.xml.gz" timestamp
          filelists := repomdData filelists "repodata/filelists.xml.gz" timestamp })
      return true : Proc T Bool) := by
  intro σ free
  refine ⟨guar_of_plain rfl, fun _ _ => ⟨guar_of_plain rfl, fun _ _ => ⟨guar_of_plain rfl,
    fun now _ => ⟨?_, fun _ _ => ?_⟩⟩⟩⟩
  · intro X summary publishes
    cases publishes
    refine ⟨fun f : IndexFile => match f with
      | .primary => some (T.gzip primary)
      | _ => some (T.gzip filelists), ?_, ⟨primary, rfl, rfl, rfl, rfl, rfl⟩,
        ⟨filelists, rfl, rfl, rfl, rfl, rfl⟩⟩
    rintro f (rfl | rfl)
    · exact (seen_still rfl).trans ((seen_still (by simp [Op.learns])).trans seen_written)
    · exact (seen_still rfl).trans seen_written
  · intro X owes
    obtain ⟨ne, owed⟩ := owes_published rfl (fun _ => id) owes
    have written := (owes_plain (isPlain rfl fun _ => id)).mp owed
    rcases owes_written written with before | part
    · rcases owes_written before with before | part
      · exact free X before
      · exact ne (part_repomd (.inl part))
    · exact ne (part_repomd (.inr part))

theorem generateDnfMetadata_pays : Pays (generateDnfMetadata : Proc T Bool) := by
  refine .op (isPlain rfl fun _ => id) fun names => ?_
  refine (rpmBodies_pays _ _).bind fun bodies => ?_
  cases bodies with
  | none => exact .ret _
  | some bodies => exact writeDnfIndexes_pays _ _

theorem signRepomdIfThere_pays : Pays (signRepomdIfThere : Proc T Unit) := by
  refine .op (isPlain rfl fun _ => id) fun present => ?_
  cases present
  · exact .ret _
  · exact .op (isPlain rfl fun _ => id) fun _ => .ret _

theorem importToRepo_pays (package : Import T) : Pays (importToRepo package) := by
  cases package with
  | apt codename file =>
    exact .op (isPlain rfl fun _ => id) fun _ => (generateAptMetadata_pays _).bind fun _ => .ret _
  | dnf file =>
    refine .op (isPlain rfl fun _ => id) fun _ => generateDnfMetadata_pays.bind fun written => ?_
    cases written
    · exact .ret _
    · exact signRepomdIfThere_pays
  | manager file => exact .op (isPlain rfl fun _ => id) fun _ => .ret _

theorem importAll_pays (imports : List (Import T)) : Pays (importAll imports) := by
  induction imports with
  | nil => exact .ret _
  | cons first rest ih => exact (importToRepo_pays first).bind fun _ => ih

theorem removeFiles_pays (files : List (Pool × String)) : Pays (removeFiles files : Proc T Unit) := by
  induction files with
  | nil => exact .ret _
  | cons file rest ih => exact .op (isPlain rfl fun _ => id) fun _ => ih

theorem regenerateMetadata_pays : Pays (regenerateMetadata : Proc T Unit) :=
  (regenerateSuites_pays _).bind fun _ => generateDnfMetadata_pays.bind fun _ => signRepomdIfThere_pays

theorem body_pays (f : Fn T) : Pays (body f) := by
  cases f with
  | runSyncCycle imports => exact (importAll_pays imports).bind fun _ => regenerateSuites_pays _
  | regenerateMetadata => exact regenerateMetadata_pays
  | deletePackages files => exact (removeFiles_pays files).bind fun _ => regenerateMetadata_pays

theorem keeps_contract : (repository T).Keeps ((indexes T).contract (Fn T)) where
  starts _ f _ := body_pays f _ fun _ => id
  tails _ _ tail := tail.elim
  idle _ := id

/-- **Agreement, where no task is overtaken.**  Start with indexes that agree with the lists, and
    run the sync cycles of the worker and the web process and the regenerate and delete endpoints in
    any number and any interleaving, with any changes of the packages.  Unless a task publishes
    digests of a list that was changed after the task last read or wrote it, the indexes agree with
    the lists when all tasks are over. -/
theorem agrees_of_finished {s t : Sys (Disk T) (Op T) Op.Resp (Fn T)}
    {h : List (Event (Disk T) (Op T) Op.Resp (Fn T))} (run : Run (repository T) s h t)
    (start : s.tasks = []) (agrees : s.world.Agrees)
    (calm : ∀ h₁ e h₂, h = h₁ ++ e :: h₂ → ¬ (indexes T).Overtaken h₁ e)
    (finished : ∀ task ∈ t.tasks, task.prog = .ret ()) : t.world.Agrees :=
  agrees_iff_consistent.mpr fun X => Publication.consistent_of_finished (indexes_sound T) run keeps_contract start
    (agrees_iff_consistent.mp agrees) calm finished X

/-! ## Two regenerations at once -/

abbrev History (T : Tools) := List (Event (Disk T) (Op T) Op.Resp (Fn T))

/-- The event is one in which the task reads or writes the file. -/
def accesses (tid : Nat) (file : IndexFile) (e : Event (Disk T) (Op T) Op.Resp (Fn T)) : Bool :=
  match e.label with
  | .op other o r => other == tid && (o.learns r file).isSome
  | _ => false

theorem accesses_iff {tid : Nat} {file : IndexFile} {e : Event (Disk T) (Op T) Op.Resp (Fn T)} :
    accesses tid file e = true ↔ (indexes T).Accesses tid file e := by
  constructor
  · intro accessed
    cases label : e.label with
    | op other o r =>
      simp only [accesses, label, Bool.and_eq_true, beq_iff_eq] at accessed
      obtain ⟨rfl, learned⟩ := accessed
      obtain ⟨v, learned⟩ := Option.isSome_iff_exists.mp learned
      exact ⟨o, r, v, label, learned⟩
    | _ => simp [accesses, label] at accessed
  · rintro ⟨o, r, v, label, learned⟩
    have some : (o.learns r file).isSome = true := Option.isSome_iff_exists.mpr ⟨v, learned⟩
    simp [accesses, label, some]

/-- The events since the task's last access, the latest first. -/
def sinceAccess (tid : Nat) (file : IndexFile) (h : History T) : History T :=
  h.reverse.takeWhile fun e => !accesses tid file e

theorem mem_sinceAccess {tid : Nat} {file : IndexFile} {h l : History T}
    {a b : Event (Disk T) (Op T) Op.Resp (Fn T)} (since : (indexes T).Since tid file h a l)
    (mem : b ∈ l) : b ∈ sinceAccess tid file h := by
  obtain ⟨⟨l₁, rfl⟩, -, last⟩ := since
  have silent : ∀ e ∈ l.reverse, (!accesses tid file e) = true := by
    intro e there
    have none := last e (List.mem_reverse.mp there)
    simpa [← accesses_iff] using none
  simp only [sinceAccess, List.reverse_append, List.reverse_cons, List.append_assoc]
  rw [List.takeWhile_append_of_pos silent]
  exact List.mem_append_left _ (List.mem_reverse.mpr mem)

def Top.files : Top → List IndexFile
  | .release suite => [.packages suite, .packagesGz suite]
  | .repomd => [.primary, .filelists]

/-- The step publishes nothing of a list that was changed after the task's last access. -/
def publishesCurrent [DecidableEq T.Bytes] (h : History T) (e : Event (Disk T) (Op T) Op.Resp (Fn T)) :
    Bool :=
  match e.label with
  | .op tid o _ => (o.publishes.map (·.1.files)).getD [] |>.all fun file =>
    (sinceAccess tid file h).all fun b => b.post.world.index file == b.pre.world.index file
  | _ => true

theorem not_overtaken [DecidableEq T.Bytes] {h : History T}
    {e : Event (Disk T) (Op T) Op.Resp (Fn T)} (current : publishesCurrent h e = true) :
    ¬ (indexes T).Overtaken h e := by
  rintro ⟨tid, o, r, X, summary, file, label, publishes, part, a, l, since, b, mem, changes⟩
  have listed : file ∈ X.files := by
    cases X with
    | release suite => exact List.mem_pair.mpr part
    | repomd => exact List.mem_pair.mpr part
  have published : o.publishes = some (X, summary) := publishes
  simp only [publishesCurrent, label, published, List.all_eq_true] at current
  have same : b.post.world.index file = b.pre.world.index file :=
    eq_of_beq (current file listed b (mem_sinceAccess since mem))
  exact changes same

namespace Small

/-- Texts are their own digests. -/
def tools : Tools where
  Bytes := String
  encode := id
  size := String.utf8ByteSize
  md5 := id
  sha1 := id
  sha256 := id
  gzip := ("gz:" ++ ·)
  parseDebControl _ := none
  parseRpm data := some ⟨data, "1", "1", 0, "x86_64", "", "", "", 0, 1, 1⟩

instance : DecidableEq tools.Bytes := inferInstanceAs (DecidableEq String)

def player : Player (repository tools) where
  Answer := Answer
  Change := Pool → List (PackageOnDisk tools)
  execute w o a := some (execute w o a)
  call s _ := some s.world
  change w pool := { w with pool }
  execute_sound executed := ⟨_, Option.some.inj executed⟩
  call_sound called := (Option.some.inj called).symm
  change_sound _ pool := ⟨pool, rfl⟩

/-- A repository in which nothing has been published. -/
def empty : Sys (Disk tools) (Op tools) Op.Resp (Fn tools) where
  world := { pool := fun _ => [], index := fun _ => none, release := fun _ => none, repomd := none }
  tasks := []

theorem empty_agrees : empty.world.Agrees := ⟨nofun, nofun⟩

def package : PackageOnDisk tools := ⟨"agent.rpm", "agent", 0⟩

/-- A regeneration and a sync cycle that brings a package. -/
def calls : List (Move player) := [.call .regenerateMetadata, .call (.runSyncCycle [.dnf package])]

def steps (n tid : Nat) : List (Move player) := .replicate n (.run tid ⟨0, true⟩)

/-- The cycle comes between the scan of the regeneration and its lists. -/
def afterScan : List (Move player) := calls ++ steps 46 0 ++ steps 57 1 ++ steps 6 0

/-- The cycle comes between the lists of the regeneration and its `repomd.xml`. -/
def afterLists : List (Move player) := calls ++ steps 48 0 ++ steps 57 1 ++ steps 4 0

def ended (s : Sys (Disk tools) (Op tools) Op.Resp (Fn tools)) : Bool :=
  s.tasks.all fun task => match task.prog with
    | .ret _ => true
    | _ => false

theorem finished_of_over {s : Sys (Disk tools) (Op tools) Op.Resp (Fn tools)} (all : ended s = true) :
    ∀ task ∈ s.tasks, task.prog = .ret () := by
  intro task mem
  have test := List.all_eq_true.mp all task mem
  cases prog : task.prog with
  | ret value => rfl
  | _ => simp [prog] at test

/-- `repomd.xml` has another digest than that of the list. -/
def stale (w : Disk tools) : Bool :=
  match w.repomd, w.index .primary with
  | some repomd, some data => repomd.primary.checksum != tools.sha256 data
  | _, _ => false

theorem spec_of_stale {w : Disk tools} (stale : stale w = true) : ∃ repomd data, w.repomd = some repomd ∧
    w.index .primary = some data ∧ repomd.primary.checksum ≠ tools.sha256 data := by
  unfold Small.stale at stale
  split at stale
  · rename_i repomd data present there
    exact ⟨repomd, data, present, there, by simpa using stale⟩
  · cases stale

end Small

theorem agrees_of_finished_afterScan :
    (Player.last Small.empty (Small.player.history Small.empty Small.afterScan)).world.Agrees := by
  have ⟨plays, current, ended⟩ : (Small.player.play Small.empty Small.afterScan).isSome = true ∧
      checksAll publishesCurrent (Small.player.history Small.empty Small.afterScan) = true ∧
      Small.ended (Player.last Small.empty (Small.player.history Small.empty Small.afterScan)) = true := by
    decide +kernel
  exact agrees_of_finished (Small.player.run_of_play plays) rfl Small.empty_agrees
    (fun h₁ e h₂ eq => not_overtaken (test_of_checksAll current eq)) (Small.finished_of_over ended)

/-- A sync cycle can replace the lists of a regeneration before its `repomd.xml` is written. -/
theorem stale_repomd : ¬ ∀ (T : Tools) (s t : Sys (Disk T) (Op T) Op.Resp (Fn T)) (h : History T),
    Run (repository T) s h t → s.tasks = [] → s.world.Agrees → t.tasks.length = 2 →
      (∀ task ∈ t.tasks, task.prog = .ret ()) → t.world.Agrees := by
  intro all
  have ⟨plays, two, ended, stale⟩ : (Small.player.play Small.empty Small.afterLists).isSome = true ∧
      (Player.last Small.empty (Small.player.history Small.empty Small.afterLists)).tasks.length = 2 ∧
      Small.ended (Player.last Small.empty (Small.player.history Small.empty Small.afterLists)) = true ∧
      Small.stale (Player.last Small.empty (Small.player.history Small.empty Small.afterLists)).world = true := by
    decide +kernel
  have agrees := all _ _ _ _ (Small.player.run_of_play plays) rfl Small.empty_agrees two
    (Small.finished_of_over ended)
  obtain ⟨repomd, data, present, there, other⟩ := Small.spec_of_stale stale
  obtain ⟨xml, same, digest, -⟩ := (agrees.repomd repomd present).1
  obtain rfl : data = Small.tools.gzip xml := Option.some.inj (there.symm.trans same)
  exact other digest

end PatchManager.Generators
