import PatchManager.Web.UpdateWindow

/-! # Lost updates of maintenance windows

An update writes back what it has read in the fields that the request leaves out.  A field that
another update has written in between is lost.

Main results:

* `updates_serialise`: every window that is reached has a day of its recurrence; where no field is
  written that a request in progress leaves out, a window ends as if the accepted requests had come
  one after the other.
* `label_lost`: two updates at the same time.
-/

namespace PatchManager.Windows

open PatchManager.Conc

abbrev State := Sys World Op Op.Resp Fn
abbrev Ev := Event World Op Op.Resp Fn
abbrev History := List Ev

/-! ## Updates one after the other -/

def rowAt (winId hostId : Uuid) (w : World) : Option Window := w.find? (isAt winId hostId)

def Fn.req : Fn → UpdateMaintenanceWindowRequest
  | .updateWindow _ _ _ req => req

/-- The request that a step accepts for a window: the one whose row it writes. -/
def acceptedBy (winId hostId : Uuid) (e : Ev) : Option UpdateMaintenanceWindowRequest :=
  match e.label with
  | .op tid (.updateWindow win host _) (.ok _) =>
    if win = winId ∧ host = hostId then e.pre.tasks[tid]?.map (·.root.req) else none
  | _ => none

def accepted (winId hostId : Uuid) (h : History) : List UpdateMaintenanceWindowRequest :=
  h.filterMap (acceptedBy winId hostId)

/-- Requests that are accepted one after the other. -/
inductive Serial : Window → List UpdateMaintenanceWindowRequest → Window → Prop
  | nil {row : Window} : Serial row [] row
  | snoc {row row' row'' : Window} {reqs : List UpdateMaintenanceWindowRequest} {req : UpdateMaintenanceWindowRequest}
      (before : Serial row reqs row') (accepts : merged req row' = .ok row'') : Serial row (reqs ++ [req]) row''

/-- The window ends as after its accepted requests one after the other, in some order. -/
def Serialised (winId hostId : Uuid) (s : State) (h : History) (t : State) : Prop :=
  ∀ row, rowAt winId hostId s.world = some row → ∃ row' order, rowAt winId hostId t.world = some row' ∧
    order.Perm (accepted winId hostId h) ∧ Serial row order row'

/-! ## What a request leaves out -/

/-- The fields that the request leaves out are the same. -/
structure UpdateMaintenanceWindowRequest.Leaves (req : UpdateMaintenanceWindowRequest) (old cur : Window) : Prop where
  label : req.label = none → old.label = cur.label
  recurrence : req.recurrence = none → old.recurrence = cur.recurrence
  startAt : req.startAt = none → old.startAt = cur.startAt
  durationMinutes : req.durationMinutes = none → old.durationMinutes = cur.durationMinutes
  recurrenceDay : req.recurrenceDay = none → old.recurrenceDay = cur.recurrenceDay
  enabled : req.enabled = none → old.enabled = cur.enabled
  autoApply : req.autoApply = none → old.autoApply = cur.autoApply
  autoReboot : req.autoReboot = none → old.autoReboot = cur.autoReboot
  rebootDelayMinutes : req.rebootDelayMinutes = none → old.rebootDelayMinutes = cur.rebootDelayMinutes

/-- When a request for the window writes, what it leaves out is as it has read it. -/
def Undisturbed (winId hostId : Uuid) (h : History) (e : Ev) : Prop :=
  ∀ tid new r task, e.label = .op tid (.updateWindow winId hostId new) r → e.pre.tasks[tid]? = some task →
    ∀ old cur, ⟨.selectWindow winId hostId, .ok (some old)⟩ ∈ exchanges tid h →
      rowAt winId hostId e.pre.world = some cur → task.root.req.Leaves old cur

section fields

variable {req : UpdateMaintenanceWindowRequest} {old cur new : Window}

theorem getD_congr {α : Type} {o : Option α} {a b : α} (same : o = none → a = b) : o.getD a = o.getD b := by
  cases o with
  | none => exact same rfl
  | some value => rfl

theorem or_congr_none {α : Type} {o a b : Option α} (same : o = none → a = b) : o.or a = o.or b := by
  cases o with
  | none => exact same rfl
  | some value => rfl

theorem UpdateMaintenanceWindowRequest.Leaves.onto (leaves : req.Leaves old cur) :
    req.onto cur = { req.onto old with id := cur.id, hostId := cur.hostId } := by
  simp only [UpdateMaintenanceWindowRequest.onto, getD_congr leaves.label, getD_congr leaves.recurrence,
    getD_congr leaves.startAt, getD_congr leaves.durationMinutes, or_congr_none leaves.recurrenceDay,
    getD_congr leaves.enabled, getD_congr leaves.autoApply, getD_congr leaves.autoReboot,
    getD_congr leaves.rebootDelayMinutes]

theorem checkDay_ok (ok : checkDay new = .ok ()) : new.DayFits := by
  unfold checkDay at ok
  cases weekly : requireDay .weekly new.recurrence new.recurrenceDay 0 6
      "Weekly recurrence requires recurrence_day 0-6" with
  | error e =>
    rw [weekly] at ok
    cases ok
  | ok =>
    rw [weekly] at ok
    exact ⟨requireDay_ok weekly, requireDay_ok ok⟩

theorem merged_ok : merged req old = .ok new ↔ checkDay (req.onto old) = .ok () ∧ new = req.onto old := by
  unfold merged
  cases checkDay (req.onto old) with
  | error e => simp [Except.map]
  | ok => simp [Except.map, eq_comm]

/-- A request that is accepted for the row it has read is accepted for one that differs only in
    what the request writes. -/
theorem UpdateMaintenanceWindowRequest.Leaves.merged (leaves : req.Leaves old cur) (accepts : merged req old = .ok new) :
    Windows.merged req cur = .ok { new with id := cur.id, hostId := cur.hostId } := by
  obtain ⟨ok, rfl⟩ := merged_ok.mp accepts
  exact merged_ok.mpr ⟨leaves.onto ▸ ok, leaves.onto.symm⟩

end fields

/-! ## Steps -/

section steps

variable {s t : State} {h : History} {w w' : World} {winId hostId win host : Uuid} {new row : Window}

theorem isAt_iff : isAt winId hostId row = true ↔ row.id = winId ∧ row.hostId = hostId := by
  simp [isAt]

theorem isAt_onRow : isAt winId hostId ((write win host new).onRow row) = isAt winId hostId row := by
  unfold Sql.Update.onRow
  split <;> rfl

theorem rowAt_apply : rowAt winId hostId ((write win host new).apply w) =
    (rowAt winId hostId w).map (write win host new).onRow := by
  rw [rowAt, rowAt, Sql.Update.apply, List.find?_map]
  congr 2
  exact funext fun _ => isAt_onRow

theorem isAt_of_rowAt (found : rowAt winId hostId w = some row) : isAt winId hostId row = true :=
  List.find?_some found

/-- An update reads nothing but its window, and writes what it has made of it. -/
def shape : Fn → List (Exchange Op Op.Resp) → Op → Prop
  | .updateWindow _ _ _ _, done, .selectWindow _ _ => done = []
  | .updateWindow _ hostId winId req, done, .updateWindow win host new => win = winId ∧ host = hostId ∧
    ∃ old, done = [⟨.selectWindow winId hostId, .ok (some old)⟩] ∧ merged req old = .ok new

theorem body_shaped (f : Fn) : (body f).Along (shaped shape) (fun _ _ => True) (.init f) := by
  obtain ⟨auth, hostId, winId, req⟩ := f
  suffices update : (updateWindow auth hostId winId req).Along (shaped shape) (fun _ _ => True)
      (.init (.updateWindow auth hostId winId req)) from update.bind fun _ _ _ => trivial
  unfold updateWindow
  split_ifs
  · trivial
  refine ⟨fun f root => ?_, fun r _ => ?_⟩
  · obtain rfl := Option.some.inj root
    rfl
  · cases r with
    | error reason => trivial
    | ok found =>
      cases found with
      | none => trivial
      | some old =>
        simp only [Prog.ret_bind, Except.mapError]
        cases accepts : merged req old with
        | error e => trivial
        | ok new =>
          refine ⟨fun f root => ?_, fun _ _ => trivial⟩
          obtain rfl := Option.some.inj root
          exact ⟨rfl, rfl, old, rfl, accepts⟩

/-- What one step does to the windows. -/
inductive Moves (e : Ev) : Prop
  | same (world : e.post.world = e.pre.world) (silent : ∀ winId hostId, acceptedBy winId hostId e = none)
  | write {tid : Nat} {win host : Uuid} {new : Window}
      {r : Except String Window} (label : e.label = .op tid (.updateWindow win host new) r)
      (world : e.post.world = (Windows.write win host new).apply e.pre.world)
      (result : r = (rowAt win host e.post.world).elim (.error "no rows returned") .ok)
  | others (label : e.label = .drift) (d : Change) (world : e.post.world = change e.pre.world d)

theorem moves_of_step {e : Ev} (step : Step windows.machine e.pre e.label e.post) : Moves e := by
  obtain ⟨tid, o, r, a, label, executed⟩ | ⟨d, label, moved⟩ | ⟨label, same⟩ | ⟨other, same⟩ := Service.world_cases step
  · change execute e.pre.world o a = some (r, e.post.world) at executed
    cases o with
    | selectWindow win host =>
      refine .same ?_ fun winId hostId => by rw [acceptedBy, label]
      cases a with
      | ok | failed reason => exact (Prod.mk.inj (Option.some.inj executed)).2.symm
    | updateWindow win host new =>
      cases a with
      | failed reason =>
        obtain ⟨rfl, same⟩ := Prod.mk.inj (Option.some.inj executed)
        exact .same same.symm fun winId hostId => by rw [acceptedBy, label]
      | ok =>
        obtain ⟨result, moved⟩ := Prod.mk.inj (Option.some.inj executed)
        refine .write label moved.symm ?_
        rw [← result, ← moved]
        rfl
  · exact .others label d moved
  · exact .same same fun winId hostId => by rw [acceptedBy, label]
  · refine .same same fun winId hostId => ?_
    unfold acceptedBy
    split
    · exact absurd ‹_› (other _ _ _)
    · rfl

end steps

/-! ## Runs -/

section runs

variable {s t : State} {h h₁ h₂ : History} {e : Ev} {winId hostId : Uuid}

/-- A write has been preceded by one read, and is what the request makes of that. -/
theorem read_before (start : s.tasks = []) (run : Run windows.machine s (h₁ ++ e :: h₂) t) {tid : Nat} {new : Window}
    {r : Except String Window} (label : e.label = .op tid (.updateWindow winId hostId new) r) :
    ∃ task old, e.pre.tasks[tid]? = some task ∧
      ⟨.selectWindow winId hostId, .ok (some old)⟩ ∈ exchanges tid h₁ ∧ merged task.root.req old = .ok new := by
  obtain ⟨task, at_, shape_of⟩ := run.shaped start body_shaped label
  obtain ⟨⟨auth, hostId', winId', req⟩, prog⟩ := task
  obtain ⟨rfl, rfl, old, done, accepts⟩ := shape_of
  exact ⟨_, old, at_, done ▸ List.mem_singleton_self _, accepts⟩

/-- What is created fits, and what is written has been checked. -/
theorem Moves.dayFits (moves : Moves e) (written : ∀ tid win host new r, e.label = .op tid (.updateWindow win host new) r →
      new.DayFits) (fits : ∀ row ∈ e.pre.world, row.DayFits) : ∀ row ∈ e.post.world, row.DayFits := by
  cases moves with
  | same world silent => rwa [world]
  | @write tid win host new r label world result =>
    intro row mem
    rw [world] at mem
    obtain ⟨row', there, rfl⟩ := Sql.Update.mem_apply.mp mem
    unfold Sql.Update.onRow
    split
    · have day := written _ _ _ _ _ label
      exact ⟨day.weekly, day.monthly⟩
    · exact fits row' there
  | others label d world =>
    intro row mem
    rw [world] at mem
    cases d with
    | created auth hostId label req db =>
      cases created : createWindow auth hostId req db with
      | error e =>
        simp only [change, created] at mem
        exact fits row mem
      | ok new =>
        simp only [change, created] at mem
        split at mem
        · exact fits row mem
        · obtain rfl | mem := List.mem_cons.mp mem
          · have day := createWindow_dayFits created
            exact ⟨day.weekly, day.monthly⟩
          · exact fits row mem
    | deleted id => exact fits row (List.mem_filter.mp mem).1

/-- Every window that is reached has a day of its recurrence. -/
theorem dayFits_of_run (start : s.tasks = []) (fits : ∀ row ∈ s.world, row.DayFits)
    (run : Run windows.machine s h t) : ∀ row ∈ t.world, row.DayFits := by
  refine run.preserves (I := fun s => ∀ row ∈ s.world, row.DayFits) (fun e mem step fits => ?_) fits
  obtain ⟨h₁, h₂, rfl⟩ := List.append_of_mem mem
  refine (moves_of_step step).dayFits (fun tid win host new r label => ?_) fits
  obtain ⟨task, old, -, -, accepts⟩ := read_before start run label
  obtain ⟨ok, rfl⟩ := merged_ok.mp accepts
  exact checkDay_ok ok

/-- One step, seen from the row of a window: it stays, or a request is accepted for it. -/
theorem Moves.row (moves : Moves e) {cur : Window} (there : rowAt winId hostId e.pre.world = some cur)
    (spared : e.label = .drift → rowAt winId hostId e.post.world = rowAt winId hostId e.pre.world)
    (accepts : ∀ tid new r, e.label = .op tid (.updateWindow winId hostId new) r →
      ∃ task, e.pre.tasks[tid]? = some task ∧ merged task.root.req cur = .ok { new with id := cur.id, hostId := cur.hostId }) :
    (rowAt winId hostId e.post.world = some cur ∧ acceptedBy winId hostId e = none) ∨
      ∃ req row, acceptedBy winId hostId e = some req ∧ rowAt winId hostId e.post.world = some row ∧
        merged req cur = .ok row := by
  cases moves with
  | same world silent => exact .inl ⟨world ▸ there, silent winId hostId⟩
  | @write tid win host new r label world result =>
    have after : rowAt winId hostId e.post.world = some ((Windows.write win host new).onRow cur) := by
      rw [world, rowAt_apply, there]
      rfl
    have key := isAt_iff.mp (isAt_of_rowAt there)
    by_cases ours : win = winId ∧ host = hostId
    · obtain ⟨rfl, rfl⟩ := ours
      obtain ⟨task, at_, accepted⟩ := accepts tid new r label
      rw [Sql.Update.onRow_eq_assign (isAt_of_rowAt there)] at after
      refine .inr ⟨task.root.req, _, ?_, after, accepted⟩
      rw [after] at result
      rw [acceptedBy, label, result]
      simp [at_]
    · have other : isAt win host cur = false := by
        rw [Bool.eq_false_iff, ne_eq, isAt_iff, key.1, key.2]
        exact fun same => ours ⟨same.1.symm, same.2.symm⟩
      rw [Sql.Update.onRow_eq_self other] at after
      refine .inl ⟨after, ?_⟩
      rw [acceptedBy, label]
      cases r with
      | error reason => rfl
      | ok row => exact if_neg ours
  | others label d world => exact .inl ⟨(spared label).trans there, by rw [acceptedBy, label]⟩

theorem accepted_snoc : accepted winId hostId (h ++ [e]) = accepted winId hostId h ++ (acceptedBy winId hostId e).toList := by
  rw [accepted, List.filterMap_append]
  cases own : acceptedBy winId hostId e <;> simp [accepted, own]

/-- Requests that write what they have read, but for their own fields, come one after the other. -/
theorem serialised_of_run (start : s.tasks = []) (run : Run windows.machine s h t)
    (spared : ∀ e ∈ h, e.label = .drift → rowAt winId hostId e.post.world = rowAt winId hostId e.pre.world)
    (undisturbed : ∀ h₁ e h₂, h = h₁ ++ e :: h₂ → Undisturbed winId hostId h₁ e) : Serialised winId hostId s h t := by
  intro row first
  suffices serial : ∃ row', rowAt winId hostId t.world = some row' ∧ Serial row (accepted winId hostId h) row' by
    obtain ⟨row', last, serial⟩ := serial
    exact ⟨row', _, last, .refl _, serial⟩
  refine run.preserves_history (I := fun h s => ∃ row', rowAt winId hostId s.world = some row' ∧
    Serial row (accepted winId hostId h) row') ⟨row, first, .nil⟩ ?_
  rintro h₁ e ⟨h₂, rfl⟩ step ⟨cur, there, serial⟩
  have accepts : ∀ tid new r, e.label = .op tid (.updateWindow winId hostId new) r → ∃ task, e.pre.tasks[tid]? = some task ∧
      merged task.root.req cur = .ok { new with id := cur.id, hostId := cur.hostId } := by
    intro tid new r label
    obtain ⟨task, old, at_, read, accepts⟩ := read_before start run label
    exact ⟨task, at_, (undisturbed h₁ e h₂ rfl tid new r task label at_ old cur read there).merged accepts⟩
  rw [accepted_snoc]
  obtain ⟨stays, none⟩ | ⟨req, row', accepted, after, accepts⟩ :=
    (moves_of_step step).row there (spared e (by simp)) accepts
  · rw [none, Option.toList_none, List.append_nil]
    exact ⟨cur, stays, serial⟩
  · rw [accepted]
    exact ⟨row', after, serial.snoc accepts⟩

/-- In every run, every window reached has a day of its recurrence, and a window in whose updates no
    field is disturbed ends as after the accepted requests one after the other. -/
theorem updates_serialise (start : s.tasks = []) (fits : ∀ row ∈ s.world, row.DayFits) (run : Run windows.machine s h t) :
    (∀ row ∈ t.world, row.DayFits) ∧ ∀ winId hostId,
      (∀ e ∈ h, e.label = .drift → rowAt winId hostId e.post.world = rowAt winId hostId e.pre.world) →
      (∀ h₁ e h₂, h = h₁ ++ e :: h₂ → Undisturbed winId hostId h₁ e) → Serialised winId hostId s h t :=
  ⟨dayFits_of_run start fits run, fun _ _ spared undisturbed => serialised_of_run start run spared undisturbed⟩

end runs

/-! ## Small runs -/

/-- Where the requests that have a label have this one, and one does, it is the last label. -/
theorem Serial.label {row row' : Window} {reqs : List UpdateMaintenanceWindowRequest} {label : String}
    (serial : Serial row reqs row') (only : ∀ req ∈ reqs, req.label = none ∨ req.label = some label)
    (one : ∃ req ∈ reqs, req.label = some label) : row'.label = label := by
  induction serial with
  | nil => simp at one
  | @snoc cur last reqs req before accepts ih =>
    obtain ⟨-, rfl⟩ := merged_ok.mp accepts
    change req.label.getD cur.label = label
    obtain none | own := only req (by simp)
    · -- the label is an earlier request's
      rw [none, Option.getD_none]
      refine ih (fun req mem => only req (by simp [mem])) ?_
      obtain ⟨req', mem, has⟩ := one
      obtain mem | mem := List.mem_append.mp mem
      · exact ⟨req', mem, has⟩
      · rw [List.mem_singleton.mp mem, none] at has
        cases has
    · rw [own, Option.getD_some]

/-- The request leaves no field out. -/
def UpdateMaintenanceWindowRequest.complete (req : UpdateMaintenanceWindowRequest) : Bool :=
  req.label.isSome && req.recurrence.isSome && req.startAt.isSome && req.durationMinutes.isSome &&
    req.recurrenceDay.isSome && req.enabled.isSome && req.autoApply.isSome && req.autoReboot.isSome &&
    req.rebootDelayMinutes.isSome

theorem UpdateMaintenanceWindowRequest.leaves_of_complete {req : UpdateMaintenanceWindowRequest} {old cur : Window}
    (complete : req.complete = true) : req.Leaves old cur := by
  simp only [UpdateMaintenanceWindowRequest.complete, Bool.and_eq_true, Option.isSome_iff_ne_none] at complete
  obtain ⟨⟨⟨⟨⟨⟨⟨⟨label, recurrence⟩, startAt⟩, durationMinutes⟩, recurrenceDay⟩, enabled⟩, autoApply⟩, autoReboot⟩,
    rebootDelayMinutes⟩ := complete
  exact ⟨(absurd · label), (absurd · recurrence), (absurd · startAt), (absurd · durationMinutes),
    (absurd · recurrenceDay), (absurd · enabled), (absurd · autoApply), (absurd · autoReboot),
    (absurd · rebootDelayMinutes)⟩

namespace Small

def player : Player windows.machine := windows.player

def operator : AuthUser := ⟨7, "op", .operator⟩

def window : Window := { id := 5, hostId := 1, recurrence := .once, startAt := 0, label := "old" }

def start : State := ⟨[window], []⟩

/-- Two requests, of which both read before one writes. -/
def together (first second : UpdateMaintenanceWindowRequest) : List (Move player) :=
  [.call (.updateWindow operator 1 5 first), .call (.updateWindow operator 1 5 second), .run 0 .ok, .run 1 .ok,
    .run 0 .ok, .run 1 .ok]

def weekly (label : String) : UpdateMaintenanceWindowRequest where
  label := some label
  recurrence := some .weekly
  startAt := some 0
  durationMinutes := some 60
  recurrenceDay := some 6
  enabled := some true
  autoApply := some true
  autoReboot := some false
  rebootDelayMinutes := some 0

def renamed : UpdateMaintenanceWindowRequest := { label := some "new" }

def longer : UpdateMaintenanceWindowRequest := { durationMinutes := some 90 }

theorem start_fits : ∀ row ∈ start.world, row.DayFits := by
  intro row mem
  obtain rfl := List.mem_singleton.mp mem
  exact ⟨nofun, nofun⟩

def history (first second : UpdateMaintenanceWindowRequest) : History := player.history start (together first second)

def ended (first second : UpdateMaintenanceWindowRequest) : State := Player.last start (history first second)

theorem weekly_run : Run windows.machine start (history (weekly "a") (weekly "b")) (ended (weekly "a") (weekly "b")) :=
  player.run_of_play rfl

theorem lost_run : Run windows.machine start (history renamed longer) (ended renamed longer) := player.run_of_play rfl

def drifts (e : Ev) : Bool :=
  match e.label with
  | .drift => true
  | _ => false

theorem no_drift {h : History} (quiet : (h.all fun e => !drifts e) = true) : ∀ e ∈ h, e.label ≠ .drift := by
  intro e mem label
  have quiet := List.all_eq_true.mp quiet e mem
  rw [drifts, label] at quiet
  cases quiet

end Small

/-- Two complete requests at the same time. -/
theorem updates_serialise_weekly :
    Serialised 5 1 Small.start (Small.history (Small.weekly "a") (Small.weekly "b"))
      (Small.ended (Small.weekly "a") (Small.weekly "b")) := by
  refine (updates_serialise rfl Small.start_fits Small.weekly_run).2 5 1
    (fun e mem label => absurd label (Small.no_drift rfl e mem)) ?_
  intro h₁ e h₂ split tid new r task label at_ old cur read there
  have complete : ((Small.history (Small.weekly "a") (Small.weekly "b")).all fun e =>
      e.pre.tasks.all fun task => task.root.req.complete) = true := rfl
  rw [split, List.all_append, List.all_cons, Bool.and_eq_true, Bool.and_eq_true] at complete
  have complete := List.all_eq_true.mp complete.2.1 task (List.mem_of_getElem? at_)
  exact UpdateMaintenanceWindowRequest.leaves_of_complete complete

/-- Of two requests that are made at the same time, one for the label and one for the duration, the
    label is lost. -/
theorem label_lost : ¬ ∀ (s t : State) (h : History), s.tasks = [] → (∀ row ∈ s.world, row.DayFits) →
    Run windows.machine s h t → (∀ e ∈ h, e.label ≠ .drift) → ∀ winId hostId, Serialised winId hostId s h t := by
  intro all
  obtain ⟨row, order, last, perm, serial⟩ := all _ _ _ rfl Small.start_fits Small.lost_run (Small.no_drift rfl) 5 1
    Small.window rfl
  have requests : accepted 5 1 (Small.history Small.renamed Small.longer) = [Small.renamed, Small.longer] := rfl
  rw [requests] at perm
  have only : ∀ req ∈ order, req.label = none ∨ req.label = some "new" := by
    intro req mem
    have mem := perm.mem_iff.mp mem
    simp only [List.mem_cons, List.not_mem_nil, or_false] at mem
    obtain rfl | rfl := mem
    · exact .inr rfl
    · exact .inl rfl
  have renamed := serial.label only ⟨Small.renamed, perm.mem_iff.mpr (by simp), rfl⟩
  have old : (rowAt 5 1 (Small.ended Small.renamed Small.longer).world).map (·.label) = some "old" := rfl
  rw [last, Option.map_some, renamed] at old
  exact absurd old (by decide)

end PatchManager.Windows
