import PatchManager.Conc.System

/-! # Files and the summaries that describe them

Tasks write files and publish summaries of them, one at a time and with nothing to order them.  A
task describes in a summary what it has last read or written itself.  Such a summary is right when
it is published unless another task has overtaken it: a file was changed between the task's last
access and the publication.

Main results:

* `Publication.settled`: in a run in which no publication is overtaken, every summary describes the
  files, or some task has still to publish it.
* `Publication.consistent_of_finished`: so when all tasks are over, every summary is right.
-/

namespace PatchManager.Conc

structure Publication (World Op : Type) (Resp : Op → Type) where
  File : Type
  Content : Type
  /-- the summaries, by what they describe -/
  Top : Type
  Summary : Type
  content : World → File → Content
  top : World → Top → Option Summary
  parts : Top → File → Prop
  describes : Top → Summary → (File → Content) → Prop
  /-- what an operation tells its task of a file -/
  learns : (o : Op) → Resp o → File → Option Content
  writes : Op → File → Prop
  publishes : Op → Option (Top × Summary)

variable {World Op : Type} {Resp : Op → Type} {Fn : Type}

namespace Publication

variable (P : Publication World Op Resp)

/-- What is published describes the files. -/
def Consistent (w : World) (X : P.Top) : Prop :=
  ∀ summary, P.top w X = some summary → P.describes X summary (P.content w)

/-- What a task knows of the files, and the summaries it owes. -/
structure Knowledge where
  seen : P.File → Option P.Content
  owes : P.Top → Prop

def blank : P.Knowledge := ⟨fun _ => none, fun _ => False⟩

/-- A task that writes a part of a summary owes the summary until it publishes it. -/
def learn (σ : P.Knowledge) (o : Op) (r : Resp o) : P.Knowledge where
  seen f := (P.learns o r f).or (σ.seen f)
  owes X := (∀ summary, P.publishes o ≠ some (X, summary)) ∧
    (σ.owes X ∨ ∃ f, P.parts X f ∧ P.writes o f)

/-- Tasks publish what they have seen, and end without debts. -/
def contract (Fn : Type) : Contract Op Resp Fn where
  State := P.Knowledge
  idle := P.blank
  init _ := P.blank
  next := P.learn
  rely _ _ := True
  guar σ o := ∀ X summary, P.publishes o = some (X, summary) →
    ∃ c, (∀ f, P.parts X f → σ.seen f = some (c f)) ∧ P.describes X summary c
  start _ _ := True
  tail _ _ := False
  exit σ := ∀ X, ¬ σ.owes X

/-- The operations do to the files and summaries what the publication says, and nothing else
    touches them. -/
structure Sound (M : Machine World Op Resp Fn) : Prop where
  restricts : ∀ {X summary c c'}, (∀ f, P.parts X f → c f = c' f) → P.describes X summary c →
    P.describes X summary c'
  learns : ∀ {w w' : World} {o : Op} {r : Resp o} {f v}, M.exec w o r w' → P.learns o r f = some v →
    P.content w' f = v
  unwritten : ∀ {w w' : World} {o : Op} {r : Resp o} {f}, M.exec w o r w' → ¬ P.writes o f →
    P.content w' f = P.content w f
  published : ∀ {w w' : World} {o : Op} {r : Resp o} {X summary}, M.exec w o r w' →
    P.publishes o = some (X, summary) → P.top w' X = some summary ∧ ∀ f, P.content w' f = P.content w f
  unpublished : ∀ {w w' : World} {o : Op} {r : Resp o} {X}, M.exec w o r w' →
    (∀ summary, P.publishes o ≠ some (X, summary)) → P.top w' X = P.top w X
  others : ∀ {s t : Sys World Op Resp Fn} {l : Label Op Resp Fn}, Step M s l t →
    (∀ tid o r, l ≠ .op tid o r) →
      P.content t.world = P.content s.world ∧ P.top t.world = P.top s.world
  lasts : ∀ f, M.perishes f = false ∧ M.abandons f = false

/-- The task reads or writes the file. -/
def Accesses (tid : Nat) (f : P.File) (e : Event World Op Resp Fn) : Prop :=
  ∃ o r v, e.label = .op tid o r ∧ P.learns o r f = some v

/-- The event leaves another content in the file. -/
def Changes (f : P.File) (e : Event World Op Resp Fn) : Prop :=
  P.content e.post.world f ≠ P.content e.pre.world f

/-- `a` is the task's last access to the file, and `l` is what has happened since. -/
def Since (tid : Nat) (f : P.File) (h : List (Event World Op Resp Fn)) (a : Event World Op Resp Fn)
    (l : List (Event World Op Resp Fn)) : Prop :=
  (∃ l₁, h = l₁ ++ a :: l) ∧ P.Accesses tid f a ∧ ∀ b ∈ l, ¬ P.Accesses tid f b

/-- Since the task's last access the file has been changed. -/
def ChangedSince (tid : Nat) (f : P.File) (h : List (Event World Op Resp Fn)) : Prop :=
  ∃ a l, P.Since tid f h a l ∧ ∃ b ∈ l, P.Changes f b

/-- A summary is published of a file that has been changed since the task's last access. -/
def Overtaken (h : List (Event World Op Resp Fn)) (e : Event World Op Resp Fn) : Prop :=
  ∃ tid o r X summary f, e.label = .op tid o r ∧ P.publishes o = some (X, summary) ∧ P.parts X f ∧
    P.ChangedSince tid f h

variable {P} {M : Machine World Op Resp Fn} {s t : Sys World Op Resp Fn}
  {h : List (Event World Op Resp Fn)}

/-! ## What a task has seen -/

theorem Since.snoc {tid : Nat} {f : P.File} {a e : Event World Op Resp Fn}
    {l : List (Event World Op Resp Fn)} (since : P.Since tid f h a l) (none : ¬ P.Accesses tid f e) :
    P.Since tid f (h ++ [e]) a (l ++ [e]) := by
  obtain ⟨⟨l₁, rfl⟩, accesses, last⟩ := since
  refine ⟨⟨l₁, by simp⟩, accesses, fun b mem => ?_⟩
  rcases List.mem_append.mp mem with old | new
  · exact last b old
  · obtain rfl := List.mem_singleton.mp new
    exact none

/-- What a task knows of a file is what the file held after its last access. -/
theorem seen_spec (sound : P.Sound M) (run : Run M s h t) {tid : Nat} {f : P.File} {v : P.Content}
    (seen : (M.ghost (P.contract Fn) h tid).seen f = some v) :
    ∃ a l, P.Since tid f h a l ∧ P.content a.post.world f = v := by
  induction run with
  | nil => cases seen
  | @snoc h u w label run step ih =>
    cases M.ghost_move (P.contract Fn) h ⟨u, label, w⟩ tid with
    | own o r same moved =>
      obtain rfl : label = .op tid o r := same
      rw [moved] at seen
      obtain ⟨root, next, w', at_, exec, rfl⟩ := step.op_inv
      cases learned : P.learns o r f with
      | none =>
        obtain ⟨a, l, since, content⟩ := ih (by simpa [contract, learn, learned] using seen)
        refine ⟨a, _, since.snoc ?_, content⟩
        rintro ⟨o', r', v', same, learned'⟩
        cases same
        rw [learned] at learned'
        cases learned'
      | some v' =>
        obtain rfl : v' = v := by simpa [contract, learn, learned] using seen
        exact ⟨_, [], ⟨⟨h, rfl⟩, ⟨o, r, v', rfl, learned⟩, by simp⟩, sound.learns exec learned⟩
    | start g starts moved => rw [moved] at seen; cases seen
    | stop ends moved => rw [moved] at seen; cases seen
    | keep others same =>
      rw [same] at seen
      obtain ⟨a, l, since, content⟩ := ih seen
      exact ⟨a, _, since.snoc fun ⟨o, r, _, label, _⟩ => others o r label, content⟩

/-- Where the file has not been changed since, it still holds what the task has seen. -/
theorem still_seen (sound : P.Sound M) (run : Run M s h t) {tid : Nat} {f : P.File} {v : P.Content}
    (seen : (M.ghost (P.contract Fn) h tid).seen f = some v) (calm : ¬ P.ChangedSince tid f h) :
    P.content t.world f = v := by
  obtain ⟨a, l, since, content⟩ := seen_spec sound run seen
  obtain ⟨l₁, rfl⟩ := since.1
  obtain ⟨-, -, rest⟩ := run.split_event
  refine rest.preserves (I := fun s => P.content s.world f = v) (fun b mem _ before => ?_) content
  have same : P.content b.post.world f = P.content b.pre.world f := by
    by_contra changes
    exact calm ⟨a, l, since, b, mem, changes⟩
  exact same.trans before

/-! ## What tasks owe -/

/-- A debt stays until its task publishes. -/
theorem owes_on (sound : P.Sound M) {e : Event World Op Resp Fn} (step : Step M e.pre e.label e.post)
    {tid : Nat} {X : P.Top} (inside : tid < e.pre.tasks.length)
    (owes : (M.ghost (P.contract Fn) h tid).owes X)
    (unpaid : ∀ o r, e.label = .op tid o r → ∀ summary, P.publishes o ≠ some (X, summary)) :
    (M.ghost (P.contract Fn) (h ++ [e]) tid).owes X := by
  rw [Machine.ghost_snoc]
  obtain ⟨pre, label, post⟩ := e
  dsimp only at step
  cases label with
  | op other o r =>
    rcases eq_or_ne tid other with rfl | ne
    · simp only [Machine.ghostStep, Function.update_self]
      exact ⟨unpaid o r rfl, .inl owes⟩
    · simpa only [Machine.ghostStep, Function.update_of_ne ne] using owes
  | spawn parent f => simpa only [Machine.ghostStep, Function.update_of_ne (Nat.ne_of_lt inside)] using owes
  | enter f => simpa only [Machine.ghostStep, Function.update_of_ne (Nat.ne_of_lt inside)] using owes
  | jump => exact owes
  | drift => exact owes
  | restart =>
    have stays : ((pre.tasks[tid]?).any fun t => M.perishes t.root) = false := by
      cases pre.tasks[tid]? <;> simp [(sound.lasts _).1]
    simpa [Machine.ghostStep, stays] using owes
  | abandon other =>
    cases step with
    | abandon at_ abandons => rw [(sound.lasts _).2] at abandons; cases abandons

/-- Every summary is right or owed by a task. -/
theorem settled (sound : P.Sound M) (run : Run M s h t) (keeps : M.Keeps (P.contract Fn))
    (start : s.tasks = []) (consistent : ∀ X, P.Consistent s.world X)
    (calm : ∀ h₁ e h₂, h = h₁ ++ e :: h₂ → ¬ P.Overtaken h₁ e) (X : P.Top) :
    P.Consistent t.world X ∨ ∃ tid, (M.ghost (P.contract Fn) h tid).owes X := by
  obtain ⟨-, permitted⟩ := run.guarantees keeps
    (fun e _ => by cases e.label <;> trivial) (Sys.along_of_empty start)
  induction run with
  | nil => exact .inl (consistent X)
  | @snoc h u w l run step ih =>
    have before := ih (fun h₁ e h₂ eq => calm h₁ e (h₂ ++ [⟨u, l, w⟩]) (by simp [eq]))
      fun h₁ e h₂ eq => permitted h₁ e (h₂ ++ [⟨u, l, w⟩]) (by simp [eq])
    -- who owes something is there
    have owed (tid : Nat) (owes : (M.ghost (P.contract Fn) h tid).owes X)
        (unpaid : ∀ o r, l = .op tid o r → ∀ summary, P.publishes o ≠ some (X, summary)) :
        (M.ghost (P.contract Fn) (h ++ [⟨u, l, w⟩]) tid).owes X := by
      refine owes_on sound step (Nat.lt_of_not_le fun beyond => ?_) owes unpaid
      rw [run.ghost_idle beyond] at owes
      exact owes
    by_cases acts : ∃ tid o r, l = .op tid o r
    · obtain ⟨tid, o, r, rfl⟩ := acts
      obtain ⟨root, next, w', at_, exec, rfl⟩ := step.op_inv
      by_cases pays : ∃ summary, P.publishes o = some (X, summary)
      · obtain ⟨summary, publishes⟩ := pays
        obtain ⟨c, seen, describes⟩ := permitted h _ [] rfl X summary publishes
        obtain ⟨published, unchanged⟩ := sound.published exec publishes
        refine .inl fun summary' there => ?_
        obtain rfl : summary = summary' := Option.some.inj (published.symm.trans there)
        refine sound.restricts (fun f part => ?_) describes
        rw [unchanged f]
        refine (still_seen sound run (seen f part) fun changed => ?_).symm
        exact calm h _ [] rfl ⟨tid, o, r, X, summary, f, rfl, publishes, part, changed⟩
      · push Not at pays
        by_cases touched : ∃ f, P.parts X f ∧ P.writes o f
        · refine .inr ⟨tid, ?_⟩
          rw [Machine.ghost_snoc]
          simp only [Machine.ghostStep, Function.update_self]
          exact ⟨pays, .inr touched⟩
        · push Not at touched
          rcases before with right | ⟨other, owes⟩
          · refine .inl fun summary there => ?_
            rw [sound.unpublished exec pays] at there
            exact sound.restricts (fun f part => (sound.unwritten exec (touched f part)).symm)
              (right summary there)
          · refine .inr ⟨other, owed other owes fun o' r' same => ?_⟩
            cases same
            exact pays
    · push Not at acts
      obtain ⟨content, top⟩ := sound.others step acts
      rcases before with right | ⟨tid, owes⟩
      · left
        unfold Consistent at *
        rwa [content, top]
      · exact .inr ⟨tid, owed tid owes fun o r same => absurd same (acts tid o r)⟩

/-- When all tasks are over, every summary is right. -/
theorem consistent_of_finished (sound : P.Sound M) (run : Run M s h t)
    (keeps : M.Keeps (P.contract Fn)) (start : s.tasks = [])
    (consistent : ∀ X, P.Consistent s.world X)
    (calm : ∀ h₁ e h₂, h = h₁ ++ e :: h₂ → ¬ P.Overtaken h₁ e)
    (finished : ∀ task ∈ t.tasks, task.prog = .ret ()) (X : P.Top) : P.Consistent t.world X := by
  rcases settled sound run keeps start consistent calm X with right | ⟨tid, owes⟩
  · exact right
  · exfalso
    cases at_ : t.tasks[tid]? with
    | none =>
      rw [run.ghost_idle (List.getElem?_eq_none_iff.mp at_)] at owes
      exact owes
    | some task =>
      have ended := (run.guarantees keeps (fun e _ => by cases e.label <;> trivial)
        (Sys.along_of_empty start)).1 tid task at_
      rw [finished task (List.mem_of_getElem? at_)] at ended
      exact ended X owes

end Publication

end PatchManager.Conc
