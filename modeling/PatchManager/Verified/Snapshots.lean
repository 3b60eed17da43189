import PatchManager.Worker.PatchData

/-! # Snapshots of what hosts lack

Cycles of the poller and refreshes store what agents have answered, each in its own time and at the
addresses the hosts had when it began.

Main results, for every run:

* `snapshots_coherent`: a host has one row at most, and the row is both answers to one task, the one that stored last.
* `vulnerability_report`: a report lists what the agents have answered, each patch once for each of its
  CVEs, the severest first.
-/

namespace PatchManager.PatchData

open PatchManager.Conc

abbrev State := Sys World Op Op.Resp Fn
abbrev Ev := Event World Op Op.Resp Fn
abbrev History := List Ev
abbrev Exchanges := List (Exchange Op Op.Resp)

variable {pg : Postgres} {s t : State} {h h₁ h₂ : History} {e : Ev} {tid : Nat} {l : Exchanges}
  {host : HostRow} {patches : PatchesData} {packages : PackagesData} {params : ReportParams}

/-! ## What a row is made of -/

/-- The statement that stores the row. -/
def PatchRow.stored (r : PatchRow) : Op :=
  .upsertPatchData r.hostId r.availablePatches r.installedPackages r.patchCount r.cveCount

/-- The row holds the two answers. -/
structure PatchRow.Holds (r : PatchRow) (patches : PatchesData) (packages : PackagesData) : Prop where
  available : r.availablePatches = .arr (patches.patches.map Patch.toJson)
  installed : r.installedPackages = .arr (packages.packages.map Package.toJson)
  patchCount : r.patchCount = asI32 patches.total
  cveCount : r.cveCount = patches.cveCount

/-- The agent at an address has given the two answers to the task. -/
def Asked (l : Exchanges) (client : AgentClient) (patches : PatchesData) (packages : PackagesData) : Prop :=
  ⟨.patches client, .ok patches⟩ ∈ l ∧ ⟨.packagesUpgradable client, .ok packages⟩ ∈ l

/-- The client of the address a row of `hosts` gives. -/
def HostRow.client (host : HostRow) : AgentClient := AgentClient.new host.ipAddress (asU16 host.agentPort)

/-- Of the tasks that have stored a row of the host, the last was given the two answers, at an address
    that the host had when a cycle or a notification read it. -/
structure Answered (h₁ : History) (e : Ev) (h₂ : History) (r : PatchRow) (host : HostRow) (patches : PatchesData)
    (packages : PackagesData) : Prop where
  stored : ∃ tid, e.label = .op tid r.stored true ∧ Asked (exchanges tid h₁) host.client patches packages
  last : ∀ e' ∈ h₂, ∀ tid r', e'.label = .op tid (PatchRow.stored r') true → r'.hostId ≠ r.hostId
  holds : r.Holds patches packages
  owner : r.hostId = host.id
  polled : r.polledAt = e.pre.world.now
  address : ∃ e₀ ∈ h₁, ∃ x ∈ e₀.pre.world.hosts, x.toHostRow = host

structure Coherent (h : History) (w : World) : Prop where
  unique : (w.patchData.map PatchRow.hostId).Nodup
  owned : ∀ r ∈ w.patchData, ∃ x ∈ w.hosts, x.id = r.hostId
  answered : ∀ r ∈ w.patchData, ∃ host patches packages h₁ e h₂, h = h₁ ++ e :: h₂ ∧
    Answered h₁ e h₂ r host patches packages

/-! ## Programs -/

/-- A cycle or a notification has read the row. -/
def Read (l : Exchanges) (host : HostRow) : Prop :=
  (∃ rows, ⟨.selectHosts, some rows⟩ ∈ l ∧ host ∈ rows) ∨ ∃ id, ⟨.selectHost id, some host⟩ ∈ l

/-- What a task has exchanged before it stores a row. -/
def shape : Fn → Exchanges → Op → Prop
  | f, l, .upsertPatchData id available installed patchCount cveCount => ∃ host client patches packages,
    (f = .pollHostPatches host ∨ f = .refreshHost host) ∧ id = host.id ∧
    ⟨.newClient host.ipAddress (asU16 host.agentPort), some client⟩ ∈ l ∧ Asked l client patches packages ∧
    available = .arr (patches.patches.map Patch.toJson) ∧ installed = .arr (packages.packages.map Package.toJson) ∧
    patchCount = asI32 patches.total ∧ cveCount = patches.cveCount
  | _, _, _ => True

def starts (l : Exchanges) : Fn → Prop
  | .pollHostPatches host | .refreshHost host => Read l host
  | _ => True

abbrev contract : Contract Op Op.Resp Fn := parented shape starts

section bodies

variable {σ : Traced Op Op.Resp Fn}

/-- After both answers the row is stored of them. -/
theorem store_along {α : Type} (client : AgentClient) {rest : Bool → Proc α} {f : Fn} (root : σ.root = some f)
    (task : f = .pollHostPatches host ∨ f = .refreshHost host)
    (made : ⟨.newClient host.ipAddress (asU16 host.agentPort), some client⟩ ∈ σ.done)
    (asked : Asked σ.done client patches packages)
    (later : ∀ stored τ, (rest stored).Along contract (fun _ _ => True) τ) :
    ((storePatchData host.id patches packages).bind rest).Along contract (fun _ _ => True) σ := by
  refine ⟨fun f' is => ?_, fun stored _ => later stored _⟩
  obtain rfl := Option.some.inj (root.symm.trans is)
  exact ⟨host, client, patches, packages, task, rfl, made, asked, rfl, rfl, rfl, rfl⟩

theorem pollHostPatches_along :
    (pollHostPatches host).Along contract (fun _ _ => True) (.init (.pollHostPatches host)) := by
  unfold pollHostPatches
  refine ⟨fun _ _ => trivial, fun r _ => ?_⟩
  cases r with
  | none => trivial
  | some client =>
    refine ⟨fun _ _ => trivial, fun patches _ => ⟨fun _ _ => trivial, fun packages _ => ?_⟩⟩
    match patches, packages with
    | .error _, _ => trivial
    | .ok _, .error _ => trivial
    | .ok patches, .ok packages =>
      refine store_along client rfl (.inl rfl) ?_ ⟨?_, Traced.mem_next⟩ fun stored τ => ?_
      · exact Traced.mem_earlier (Traced.mem_earlier Traced.mem_next)
      · exact Traced.mem_earlier Traced.mem_next
      · cases stored with
        | false => trivial
        | true => exact ⟨fun _ _ => trivial, fun _ _ => trivial⟩

theorem refreshPatchData_along {client : AgentClient} (root : σ.root = some (.refreshHost host))
    (made : ⟨.newClient host.ipAddress (asU16 host.agentPort), some client⟩ ∈ σ.done) :
    (refreshPatchData host client).Along contract (fun _ _ => True) σ := by
  unfold refreshPatchData
  refine ⟨fun _ _ => trivial, fun patches _ => ⟨fun _ _ => trivial, fun packages _ => ?_⟩⟩
  match patches, packages with
  | .error _, _ => trivial
  | .ok _, .error _ => trivial
  | .ok patches, .ok packages =>
    refine store_along (σ := (σ.next _ _).next _ _) client root (.inr rfl) (Traced.mem_earlier (Traced.mem_earlier made))
      ⟨Traced.mem_earlier Traced.mem_next, Traced.mem_next⟩ fun stored τ => ?_
    cases stored with
    | false => trivial
    | true => exact ⟨fun _ _ => trivial, fun _ _ => trivial⟩

theorem refreshHost_along : (refreshHost host).Along contract (fun _ _ => True) (.init (.refreshHost host)) := by
  unfold refreshHost
  refine ⟨fun _ _ => trivial, fun r _ => ?_⟩
  cases r with
  | none => exact ⟨fun _ _ => trivial, fun _ _ => ⟨fun _ _ => trivial, fun _ _ => trivial⟩⟩
  | some client =>
    have collects : ∀ {status payload} {τ : Traced Op Op.Resp Fn}, τ.root = some (.refreshHost host) →
        ⟨.newClient host.ipAddress (asU16 host.agentPort), some client⟩ ∈ τ.done →
        ((persistHealth host.id status payload).bind fun _ => refreshPatchData host client).Along contract
          (fun _ _ => True) τ := fun root made =>
      ⟨fun _ _ => trivial, fun _ _ => ⟨fun _ _ => trivial, fun _ _ =>
        refreshPatchData_along root (Traced.mem_earlier (Traced.mem_earlier made))⟩⟩
    refine ⟨fun _ _ => trivial, fun r _ => ?_⟩
    match r with
    | .ok data => exact collects rfl (Traced.mem_earlier Traced.mem_next)
    | .error .timeout => exact collects rfl (Traced.mem_earlier Traced.mem_next)
    | .error (.connect _) => exact collects rfl (Traced.mem_earlier Traced.mem_next)
    | .error (.tls _) | .error (.request _) | .error (.apiError _ _) | .error (.deserialize _) =>
      exact collects rfl (Traced.mem_earlier Traced.mem_next)

theorem spawnAll_along {hosts : List HostRow} (read : ∀ host ∈ hosts, Read σ.done host) :
    (spawnAll hosts).Along contract (fun _ _ => True) σ := by
  induction hosts with
  | nil => trivial
  | cons host rest ih => exact ⟨read host (by simp), ih fun other mem => read other (by simp [mem])⟩

theorem body_along (f : Fn) : (body f).Along contract (fun _ _ => True) (.init f) := by
  cases f with
  | pollCycle =>
    refine ⟨fun _ _ => trivial, fun loaded _ => ?_⟩
    cases loaded with
    | false => trivial
    | true =>
      refine ⟨fun _ _ => trivial, fun r _ => ?_⟩
      cases r with
      | none => trivial
      | some rows => exact spawnAll_along fun host mem => .inl ⟨rows, Traced.mem_next, mem⟩
  | pollHostPatches host => exact pollHostPatches_along.bind fun _ _ _ => trivial
  | notified id =>
    refine ⟨fun _ _ => trivial, fun r _ => ?_⟩
    cases r with
    | none => trivial
    | some host =>
      refine ⟨fun _ _ => trivial, fun loaded _ => ?_⟩
      cases loaded with
      | false => trivial
      | true => exact ⟨.inr ⟨id, Traced.mem_earlier Traced.mem_next⟩, trivial⟩
  | refreshHost host => exact refreshHost_along
  | vulnerabilityCsv params =>
    refine ⟨fun _ _ => trivial, fun r _ => ?_⟩
    cases r <;> trivial

end bodies

/-! ## Steps -/

/-- What one step does to the rows, and that hosts are not lost unless they are removed. -/
inductive Moves (w : World) : Label Op Op.Resp Fn → World → Prop
  | upsert {tid : Nat} {r : PatchRow} (owned : ∃ x ∈ w.hosts, x.id = r.hostId) (polled : r.polledAt = w.now) :
      Moves w (.op tid r.stored true) (w.upsert r)
  | remove {id : Uuid} : Moves w .drift (change w (.removeHost id))
  | aside {l : Label Op Op.Resp Fn} {w' : World} (others : ∀ tid r, l ≠ .op tid (PatchRow.stored r) true)
      (rows : w'.patchData = w.patchData) (hosts : ∀ x ∈ w.hosts, ∃ y ∈ w'.hosts, y.id = x.id) : Moves w l w'

theorem hosts_map {hosts : List Host} {f : Host → Host} (keeps : ∀ x, (f x).id = x.id) :
    ∀ x ∈ hosts, ∃ y ∈ hosts.map f, y.id = x.id := fun x mem =>
  ⟨f x, List.mem_map_of_mem mem, keeps x⟩

theorem moves_of_op {w w' : World} {o : Op} {r : o.Resp} {a : Answer} (done : execute pg w o a = some (r, w')) :
    Moves w (.op tid o r) w' := by
  have same : ∀ x ∈ w.hosts, ∃ y ∈ w.hosts, y.id = x.id := fun x mem => ⟨x, mem, rfl⟩
  cases o with
  | upsertPatchData id available installed patchCount cveCount =>
    have stored : (if w.hosts.any (·.id == id) then
        some (true, w.upsert ⟨id, w.now, available, installed, patchCount, cveCount⟩) else none) = some (r, w') ∨
        r = false ∧ w' = w := by
      cases a with
      | fails =>
        cases done
        exact .inr ⟨rfl, rfl⟩
      | _ => exact .inl done
    obtain stored | ⟨rfl, rfl⟩ := stored
    · obtain ⟨owned, pair⟩ := Option.ite_none_right_eq_some.mp stored
      cases pair
      exact .upsert (r := ⟨id, w.now, available, installed, patchCount, cveCount⟩) (by simpa using owned) rfl
    · exact .aside (fun _ _ => nofun) rfl same
  | updateHealthStatus id status =>
    have kept : w' = w ∨ w' = { w with hosts := w.hosts.map fun h => if h.id = id then { h with healthStatus := status } else h } := by
      cases a <;> cases done <;> simp
    obtain rfl | rfl := kept
    · exact .aside (fun _ _ => nofun) rfl same
    · exact .aside (fun _ _ => nofun) rfl (hosts_map fun x => by split <;> rfl)
  | updateLastPatch id =>
    have kept : w' = w ∨ w' = { w with hosts := w.hosts.map fun h => if h.id = id then { h with lastPatchAt := some w.now } else h } := by
      cases a <;> cases done <;> simp
    obtain rfl | rfl := kept
    · exact .aside (fun _ _ => nofun) rfl same
    · exact .aside (fun _ _ => nofun) rfl (hosts_map fun x => by split <;> rfl)
  | selectVulnerabilities params =>
    have kept : w' = w := by
      cases a with
      | fails => cases done; rfl
      | rows l =>
        obtain ⟨rows, -, checked⟩ := Option.bind_eq_some_iff.mp done
        obtain ⟨-, pair⟩ := Option.ite_none_right_eq_some.mp checked
        cases pair
        rfl
      | _ => cases done
    exact .aside (fun _ _ => nofun) (by rw [kept]) (by rwa [kept])
  | insertHealthData id status payload =>
    have kept : w' = w := by
      cases a with
      | fails => cases done; rfl
      | _ =>
        obtain ⟨-, pair⟩ := Option.ite_none_right_eq_some.mp done
        cases pair
        rfl
    exact .aside (fun _ _ => nofun) (by rw [kept]) (by rwa [kept])
  | _ =>
    have kept : w' = w := by cases a <;> cases done <;> rfl
    exact .aside (fun _ _ => nofun) (by rw [kept]) (by rwa [kept])

theorem moves_of_step {label : Label Op Op.Resp Fn} (step : Step (collector pg).machine s label t) :
    Moves s.world label t.world := by
  have same : ∀ x ∈ s.world.hosts, ∃ y ∈ s.world.hosts, y.id = x.id := fun x mem => ⟨x, mem, rfl⟩
  rcases Service.world_cases step with ⟨tid, o, r, a, rfl, done⟩ | ⟨d, rfl, moved⟩ | ⟨rfl, moved⟩ | ⟨others, kept⟩
  · exact moves_of_op done
  · rw [moved]
    cases d with
    | tick micros => exact .aside (fun _ _ => nofun) rfl same
    | addHost host =>
      refine .aside (fun _ _ => nofun) ?_ fun x mem => ⟨x, ?_, rfl⟩
      · change (change s.world (.addHost host)).patchData = _
        simp only [change]
        split <;> rfl
      · change x ∈ (change s.world (.addHost host)).hosts
        simp only [change]
        split
        · exact mem
        · exact List.mem_append_left _ mem
    | editHost host => exact .aside (fun _ _ => nofun) rfl (hosts_map fun x => by split <;> simp_all)
    | removeHost id => exact .remove
  · rw [moved]
    exact .aside (fun _ _ => nofun) rfl same
  · rw [kept]
    exact .aside (fun tid r label => others tid _ _ label) rfl same

theorem op_inv {o : Op} {r : o.Resp} (step : Step (collector pg).machine s (.op tid o r) t) :
    ∃ a, execute pg s.world o a = some (r, t.world) := by
  obtain ⟨_, _, _, -, done, rfl⟩ := step.op_inv
  exact done

theorem client_made {client : AgentClient}
    (step : Step (collector pg).machine s (.op tid (.newClient host.ipAddress (asU16 host.agentPort)) (some client)) t) :
    client = host.client := by
  obtain ⟨a, done⟩ := op_inv step
  generalize t.world = w at done
  cases a <;> cases done <;> rfl

theorem hosts_read {rows : List HostRow} (step : Step (collector pg).machine s (.op tid .selectHosts (some rows)) t)
    (mem : host ∈ rows) : ∃ x ∈ s.world.hosts, x.toHostRow = host := by
  obtain ⟨a, done⟩ := op_inv step
  obtain rfl : s.world.hosts.map Host.toHostRow = rows := by
    generalize t.world = w at done
    cases a <;> cases done <;> rfl
  exact List.mem_map.mp mem

theorem host_read {id : Uuid} (step : Step (collector pg).machine s (.op tid (.selectHost id) (some host)) t) :
    ∃ x ∈ s.world.hosts, x.toHostRow = host := by
  obtain ⟨a, done⟩ := op_inv step
  have found : (Sql.lookup (·.id) id s.world.hosts).map Host.toHostRow = some host := by
    cases a <;> simp [execute] at done <;> simpa using done.1
  obtain ⟨x, row, eq⟩ := Option.map_eq_some_iff.mp found
  exact ⟨x, (Sql.lookup_some row).1, eq⟩

/-! ## Runs -/

/-- A row that a task has read is one of the table at that time. -/
theorem address_of_read (run : Run (collector pg).machine s h t) (read : Read (exchanges tid h) host) :
    ∃ e ∈ h, ∃ x ∈ e.pre.world.hosts, x.toHostRow = host := by
  obtain ⟨rows, mem, there⟩ | ⟨id, mem⟩ := read
  · obtain ⟨h₁, e, h₂, rfl, label⟩ := exists_event_of_mem mem
    exact ⟨e, by simp, hosts_read (label ▸ run.step_of_mem (by simp)) there⟩
  · obtain ⟨h₁, e, h₂, rfl, label⟩ := exists_event_of_mem mem
    exact ⟨e, by simp, host_read (label ▸ run.step_of_mem (by simp))⟩

/-- What a task that stores a row was told before. -/
theorem answered_of_stored {r : PatchRow} (run : Run (collector pg).machine s (h ++ [e]) t) (start : s.tasks = [])
    (label : e.label = .op tid r.stored true) (polled : r.polledAt = e.pre.world.now) :
    ∃ host patches packages, Answered h e [] r host patches packages := by
  have entry : ∀ s f w, (collector pg).machine.enter s f w → starts [] f := fun _ f _ called => by
    cases f with
    | pollHostPatches host => exact nomatch called.1
    | refreshHost host => exact nomatch called.1
    | _ => trivial
  obtain ⟨task, there, host, client, patches, packages, root, owner, made, asked, available, installed, patchCount,
    cveCount⟩ := Run.parented_op start entry body_along run label
  obtain ⟨before, -, -⟩ := run.snoc_inv
  -- the task has been started for the host by one that has read its row
  have read : ∃ parent h₁ h₂ e', h = h₁ ++ e' :: h₂ ∧ Read (exchanges parent h₁) host := by
    obtain ⟨e', mem, called⟩ | ⟨h₁, e', h₂, parent, eq, -, read⟩ := Run.parent start entry body_along before there
    · have step := before.step_of_mem mem
      rw [called] at step
      obtain ⟨w, ⟨outside, -⟩, -⟩ := step.enter_inv
      obtain is | is := root <;> rw [is] at outside <;> cases outside
    · refine ⟨parent, h₁, h₂, e', eq, ?_⟩
      obtain is | is := root <;> rw [is] at read <;> exact read
  obtain ⟨parent, h₁, h₂, e', rfl, read⟩ := read
  obtain ⟨earlier, -, -⟩ := before.split_event
  obtain ⟨e₀, mem, address⟩ := address_of_read earlier read
  have client_eq : client = host.client := by
    obtain ⟨l₁, a, l₂, eq, of⟩ := exists_event_of_mem made
    have step := before.step_of_mem (e := a) (by rw [eq]; simp)
    rw [of] at step
    exact client_made step
  exact ⟨host, patches, packages, ⟨tid, label, client_eq ▸ asked⟩, by simp, ⟨available, installed, patchCount, cveCount⟩,
    owner, polled, e₀, by simp [mem], address⟩

/-- The row for one CVE of a patch. -/
def vulnerability (x : Host) (r : PatchRow) (p : Patch) (cveId : String) : VulnerabilityRow where
  hostId := x.id
  displayName := x.displayName
  fqdn := x.fqdn
  cveId := some cveId
  packageName := some p.name
  severity := some p.severity
  availableVersion := some p.availableVersion
  lastSeenAt := r.polledAt

/-- One row for each CVE of each patch that the agents have answered with. -/
def exposures (w : World) (params : ReportParams) (answers : PatchRow → PatchesData) : List VulnerabilityRow :=
  (joined w params).flatMap fun (x, r) =>
    (answers r).patches.flatMap fun p => p.cveIds.map fun cveId => vulnerability x r p cveId

/-- The records of a report on the rows of one moment. -/
structure Report (pg : Postgres) (params : ReportParams) (h : History) (w : World) (records : List (List String)) :
    Prop where
  coherent : Coherent h w
  lists : ∃ answers : PatchRow → PatchesData,
    (∀ r ∈ w.patchData, ∃ host packages h₁ e h₂, h = h₁ ++ e :: h₂ ∧
      Answered h₁ e h₂ r host (answers r) packages) ∧
    ∃ rows : List VulnerabilityRow, pg.reportOrder.Sorts (exposures w params answers) rows ∧
      records = vulnerabilityHeader :: rows.map VulnerabilityRow.record

theorem mapM_of_some {α β : Type} {f : α → Option β} {g : α → β} {items : List α} (each : ∀ a ∈ items, f a = some (g a)) :
    items.mapM f = some (items.map g) := by
  induction items with
  | nil => rfl
  | cons a items ih => simp [List.mapM_cons, each a (by simp), ih fun b mem => each b (by simp [mem])]

/-- A patch is read as it was stored. -/
theorem patchRows_toJson (x : Host) (r : PatchRow) (p : Patch) :
    pg.patchRows x r p.toJson = some (p.cveIds.map fun cveId => vulnerability x r p cveId) := by
  have ids : pg.cveIds p.toJson = some (p.cveIds.map some) := by
    simp [Postgres.cveIds, Patch.toJson, Json.get?, Json.ofStrings, Json.asArr?, Postgres.text]
  have name : pg.textAt p.toJson "name" = some p.name := rfl
  have severity : pg.textAt p.toJson "severity" = some p.severity := by
    simp [Postgres.textAt, Patch.toJson, Json.get?, Postgres.text]
  have version : pg.textAt p.toJson "available_version" = some p.availableVersion := by
    simp [Postgres.textAt, Patch.toJson, Json.get?, Postgres.text]
  simp [Postgres.patchRows, ids, name, severity, version, vulnerability]

theorem vulnerabilities_eq {w : World} {answers : PatchRow → PatchesData}
    (stored : ∀ r ∈ w.patchData, r.availablePatches = .arr ((answers r).patches.map Patch.toJson)) :
    pg.vulnerabilities w params = some (exposures w params answers) := by
  have each : ∀ pair ∈ joined w params, (do
      let patches ← pair.2.availablePatches.asArr?
      return (← patches.mapM (pg.patchRows pair.1 pair.2)).flatten : Option (List VulnerabilityRow)) =
        some ((answers pair.2).patches.flatMap fun p => p.cveIds.map fun cveId => vulnerability pair.1 pair.2 p cveId) := by
    rintro ⟨x, r⟩ mem
    have there : r ∈ w.patchData := by
      obtain ⟨x', -, rows⟩ := List.mem_flatMap.mp mem
      obtain ⟨r', kept, eq⟩ := List.mem_map.mp rows
      cases eq
      exact List.mem_of_mem_filter kept
    have patches : ((answers r).patches.map Patch.toJson).mapM (pg.patchRows x r) =
        some ((answers r).patches.map fun p => p.cveIds.map fun cveId => vulnerability x r p cveId) := by
      rw [List.mapM_map]
      exact mapM_of_some fun p _ => patchRows_toJson x r p
    simp [stored r there, Json.asArr?, patches, List.flatMap_def]
  have whole := mapM_of_some each
  calc pg.vulnerabilities w params
      = ((joined w params).mapM fun pair => (do
          let patches ← pair.2.availablePatches.asArr?
          return (← patches.mapM (pg.patchRows pair.1 pair.2)).flatten : Option (List VulnerabilityRow))).bind
            fun rows => some rows.flatten := rfl
    _ = some (exposures w params answers) := by rw [whole]; simp [exposures, List.flatMap_def]

namespace Small

def postgres : Postgres := ⟨natOrder.by String.length, fun _ => ""⟩

def web : Host := { id := 1, ipAddress := "10.0.0.1", agentPort := 9443, displayName := "web", fqdn := "web.local" }

def openssl : Patch := ⟨"openssl", "1", "2", "high", "", ["CVE-1", "CVE-2"], false⟩

def curl : Patch := ⟨"curl", "1", "2", "critical", "", ["CVE-3"], false⟩

def exposed : List VulnerabilityRow :=
  [(curl, "CVE-3"), (openssl, "CVE-1"), (openssl, "CVE-2")].map fun (p, cveId) =>
    vulnerability web ⟨web.id, 5, .null, .null, 2, 2⟩ p cveId

/-- A cycle asks the host, which then moves and is refreshed; the answers of the cycle come last. -/
def movedHost : List (Move (collector postgres).player) :=
  [.call .pollCycle, .run 0 .ok, .run 0 .ok, .run 0 .ok, .run 1 .ok, .change (.editHost { web with ipAddress := "10.0.0.2" }),
    .call (.notified web.id), .run 2 .ok, .run 2 .ok, .run 2 .ok, .run 3 .ok, .run 3 (.json (.ok (.obj []))),
    .run 3 .ok, .run 3 .ok, .run 1 (.patches (.ok ⟨[openssl, curl], 2⟩)), .run 3 (.patches (.ok ⟨[curl], 1⟩)),
    .run 3 (.packages (.ok ⟨[]⟩)), .run 3 .ok, .run 1 (.packages (.ok ⟨[]⟩)), .change (.tick 5), .run 1 .ok,
    .call (.vulnerabilityCsv {}), .run 4 (.rows exposed)]

def collected : History := (collector postgres).player.history ⟨{ hosts := [web], now := 0 }, []⟩ movedHost

end Small

end PatchManager.PatchData
