import PatchManager.Conc.Credit
import PatchManager.Conc.Exchange
import PatchManager.Conc.Schedule
import PatchManager.Web.Discovery

/-! # Complete scans

A scan stores every address that it reaches, and each one time: its identifier pays for one task for
every host of the network.  An address is reached by the text of its socket, and that of an IPv6
address is not one.

Main results:

* `scan_complete_iff`: a scan that is over has found the hosts that take a connection exactly when
  those are IPv4 addresses.
* `ipv6_not_found`: a host with an IPv6 address.
-/

namespace PatchManager.Discovery

open PatchManager.Conc

abbrev State := Sys World Op Op.Resp Fn
abbrev Ev := Event World Op Op.Resp Fn
abbrev History := List Ev

/-- The addresses that a scan has stored. -/
def found (w : World) (scanId : Uuid) : List IpAddr :=
  (w.results.filter (·.scanId == scanId)).map (·.ipAddress)

/-- The scan has found the hosts that take a connection, and each of them one time. -/
def Complete (lib : IpNetLib) (opens : SocketAddr → Bool) (cidr : IpNet) (port : Nat) (scanId : Uuid) (w : World) : Prop :=
  (found w scanId).Perm ((lib.hosts cidr).filter fun ip => opens ⟨ip, port⟩)

/-- At the start there is no task, and scans to come have not stored anything. -/
structure Initial (s : State) : Prop where
  tasks : s.tasks = []
  finished : s.world.finished = []
  results : ∀ row ∈ s.world.results, row.scanId ∈ s.world.scanIds

/-- The server is not restarted, and what is stored is stored. -/
def undisturbed (e : Ev) : Bool :=
  match e.label with
  | .restart => false
  | .op _ (.insertResult _ _ _ _) (.error _) => false
  | _ => true

/-! ## Programs -/

/-- The text of the socket is one, and takes a connection. -/
def reaches (opens : SocketAddr → Bool) (ip : IpAddr) (port : Nat) : Bool :=
  (SocketAddr.parse (SocketAddr.format ip port)).any opens

/-- What has been exchanged when a probe tells whether the port is open. -/
def Probed (ip : IpAddr) (port : Nat) (done : List (Exchange Op Op.Resp)) : Bool → Prop
  | true => ∃ addr, SocketAddr.parse (SocketAddr.format ip port) = some addr ∧ ⟨.connect addr, true⟩ ∈ done
  | false => ∀ addr, SocketAddr.parse (SocketAddr.format ip port) = some addr → ⟨.connect addr, false⟩ ∈ done

/-- What has been exchanged when it is known whether the address has been stored. -/
def Stored (scanId : Uuid) (ip : IpAddr) (port : Nat) (done : List (Exchange Op Op.Resp)) : Bool → Prop
  | true => ∃ fqdn r, ⟨.insertResult scanId ip fqdn port, r⟩ ∈ done
  | false => Probed ip port done false

/-- An address is stored after a connection, and a scan is over when all its tasks are. -/
def shape (lib : IpNetLib) : Fn → List (Exchange Op Op.Resp) → Op → Prop
  | _, done, .insertResult _ ip _ port => Probed ip port done true
  | _, done, .finish scanId ip port stored => Stored scanId ip port done stored
  | .startCidrScan auth req, done, .ended scanId cidr port =>
    checkScan lib auth req = .ok (cidr, port) ∧ ⟨.newScanId, scanId⟩ ∈ done ∧
      ∀ ip ∈ lib.hosts cidr, ⟨.join scanId ip port, ()⟩ ∈ done
  | .probe _ _ _, _, .ended _ _ _ => False
  | _, _, _ => True

section programs

variable {lib : IpNetLib} {σ : Traced Op Op.Resp Fn} {scanId : Uuid} {ip : IpAddr} {port : Nat}

/-- What has been exchanged stays. -/
theorem Stored.next {stored : Bool} (known : Stored scanId ip port σ.done stored) (o : Op) (r : o.Resp) :
    Stored scanId ip port (σ.next o r).done stored := by
  cases stored with
  | true =>
    obtain ⟨fqdn, r', mem⟩ := known
    exact ⟨fqdn, r', List.mem_append_left _ mem⟩
  | false => exact fun addr parsed => List.mem_append_left _ (known addr parsed)

theorem perform_shaped {o : Op} {post : Traced Op Op.Resp Fn → o.Resp → Prop} (permitted : ∀ f, shape lib f σ.done o)
    (after : ∀ r, post (σ.next o r) r) : (perform o).Along (shaped (shape lib)) post σ :=
  ⟨fun f _ => permitted f, fun r _ => after r⟩

theorem tryConnect_shaped :
    (tryConnect ip port).Along (shaped (shape lib)) (fun τ isOpen => Probed ip port τ.done isOpen) σ := by
  unfold tryConnect
  cases parsed : SocketAddr.parse (SocketAddr.format ip port) with
  | none =>
    intro addr same
    rw [parsed] at same
    cases same
  | some addr =>
    refine perform_shaped (fun f => by cases f <;> trivial) fun isOpen => ?_
    have told : ⟨.connect addr, isOpen⟩ ∈ (σ.next (.connect addr) isOpen).done :=
      List.mem_append_right _ (List.mem_singleton_self _)
    cases isOpen with
    | true => exact ⟨addr, parsed, told⟩
    | false =>
      intro addr' same
      obtain rfl := Option.some.inj (parsed.symm.trans same)
      exact told

theorem probeAndStore_shaped :
    (probeAndStore scanId ip port).Along (shaped (shape lib)) (fun τ stored => Stored scanId ip port τ.done stored) σ := by
  refine tryConnect_shaped.bind fun τ isOpen probed => ?_
  cases isOpen with
  | false => exact probed
  | true =>
    obtain ⟨addr, parsed, told⟩ := probed
    refine ⟨fun f _ => by cases f <;> trivial, fun fqdn _ => ⟨fun f _ => ?_, fun r _ => ?_⟩⟩
    · have probed : Probed ip port (τ.next (.reverseLookup ip) fqdn).done true :=
        ⟨addr, parsed, List.mem_append_left _ told⟩
      cases f <;> exact probed
    · exact ⟨fqdn, r, List.mem_append_right _ (List.mem_singleton_self _)⟩

theorem probe_shaped : (probe scanId ip port).Along (shaped (shape lib)) (fun _ _ => True) σ := by
  refine ⟨fun f _ => by cases f <;> trivial, fun _ _ => ?_⟩
  refine probeAndStore_shaped.bind fun τ stored known => ⟨fun f _ => by cases f <;> trivial, fun _ _ => ?_⟩
  refine ⟨fun f _ => ?_, fun _ _ => trivial⟩
  have known := known.next (.release scanId) ()
  cases f <;> exact known

theorem spawnAll_shaped (hosts : List IpAddr) :
    (spawnAll scanId port hosts).Along (shaped (shape lib)) (fun τ _ => τ = σ) σ := by
  induction hosts with
  | nil => rfl
  | cons ip hosts ih => exact ⟨trivial, ih⟩

theorem joinAll_shaped (hosts : List IpAddr) : (joinAll scanId port hosts).Along (shaped (shape lib))
    (fun τ _ => τ.root = σ.root ∧ σ.done ⊆ τ.done ∧ ∀ ip ∈ hosts, ⟨.join scanId ip port, ()⟩ ∈ τ.done) σ := by
  induction hosts generalizing σ with
  | nil => exact ⟨rfl, List.Subset.refl _, nofun⟩
  | cons ip hosts ih =>
    refine ⟨fun f _ => by cases f <;> trivial, fun r _ => (ih (σ := σ.next (.join scanId ip port) r)).weaken ?_⟩
    rintro τ - ⟨root, more, joined⟩
    refine ⟨root, fun x mem => more (List.mem_append_left _ mem), List.forall_mem_cons.mpr ⟨?_, joined⟩⟩
    exact more (List.mem_append_right _ (List.mem_singleton_self _))

theorem body_shaped (f : Fn) : (body lib f).Along (shaped (shape lib)) (fun _ _ => True) (.init f) := by
  cases f with
  | probe scanId ip port => exact probe_shaped
  | startCidrScan auth req =>
    change (startCidrScan lib auth req).Along _ _ _
    unfold startCidrScan
    cases checked : checkScan lib auth req with
    | error e => trivial
    | ok target =>
      obtain ⟨cidr, port⟩ := target
      refine ⟨fun f _ => by cases f <;> trivial, fun scanId _ => ?_⟩
      refine (spawnAll_shaped _).bind fun τ _ same => ?_
      subst same
      refine (joinAll_shaped _).bind fun τ _ ⟨root, more, joined⟩ => ?_
      refine ⟨fun f own => ?_, fun _ _ => trivial⟩
      obtain rfl := Option.some.inj (root.symm.trans own)
      exact ⟨checked, more (List.mem_singleton_self _), joined⟩

end programs

/-! ## What the identifier of a scan pays for -/

def isTarget (scanId : Uuid) (ip : IpAddr) (port : Nat) (id : Uuid) (ip' : IpAddr) (port' : Nat) : Bool :=
  id == scanId && ip' == ip && port' == port

/-- A new identifier earns one credit.  The scan gives it to the task of the address, which pays for
    the row or for the lack of it, or keeps it to its end where the address is not scanned. -/
def share (lib : IpNetLib) (scanId : Uuid) (ip : IpAddr) (port : Nat) : Credits Op Op.Resp Fn where
  earns
    | .newScanId, id => (id == scanId).toNat
    | _, _ => 0
  costs
    | .insertResult id ip' _ port' | .finish id ip' port' false => (isTarget scanId ip port id ip' port').toNat
    | .ended id cidr port' => (id == scanId && !((lib.hosts cidr).contains ip && port' == port)).toNat
    | _ => 0
  grant
    | .probe id ip' port' => (isTarget scanId ip port id ip' port').toNat
    | _ => 0

section balanced

variable {lib : IpNetLib} {opens : SocketAddr → Bool} {scanId : Uuid} {ip : IpAddr} {port : Nat}

theorem tryConnect_free (ip' : IpAddr) (port' : Nat) : (tryConnect ip' port').Within (share lib scanId ip port).Free
    (fun f => (share lib scanId ip port).grant f = 0) fun _ => False := by
  unfold tryConnect
  split
  · exact .ret _
  · exact .op ⟨rfl, fun _ => rfl⟩ fun _ => .ret _

theorem probe_balanced (id : Uuid) (ip' : IpAddr) (port' : Nat) :
    (probe id ip' port').Balanced (share lib scanId ip port) (isTarget scanId ip port id ip' port').toNat := by
  refine .free ⟨rfl, fun _ => rfl⟩ fun _ => ?_
  rw [Prog.ret_bind, probeAndStore, Prog.bind_assoc]
  refine .frame (tryConnect_free ip' port') fun isOpen => ?_
  cases isOpen with
  | false => exact .free ⟨rfl, fun _ => rfl⟩ fun _ => .pay rfl (fun _ => rfl) fun _ => rfl
  | true =>
    refine .free ⟨rfl, fun _ => rfl⟩ fun fqdn => .pay rfl (fun _ => rfl) fun _ => ?_
    exact .free ⟨rfl, fun _ => rfl⟩ fun _ => .free ⟨rfl, fun _ => rfl⟩ fun _ => rfl

/-- The tasks of a scan get the credit as often as the address is in the list. -/
theorem spawnAll_balanced {β : Type} {id : Uuid} {port' n : Nat} {hosts : List IpAddr} {rest : Unit → Proc β}
    (balanced : (rest ()).Balanced (share lib scanId ip port) n) :
    ((spawnAll id port' hosts).bind rest).Balanced (share lib scanId ip port)
      (n + hosts.countP fun ip' => isTarget scanId ip port id ip' port') := by
  induction hosts with
  | nil => exact balanced
  | cons ip' hosts ih =>
    rw [List.countP_cons]
    have grant : (share lib scanId ip port).grant (.probe id ip' port') =
        if isTarget scanId ip port id ip' port' = true then 1 else 0 := by
      simp only [share]
      cases isTarget scanId ip port id ip' port' <;> rfl
    refine ⟨by rw [grant]; omega, ?_⟩
    rw [grant, ← Nat.add_assoc, Nat.add_sub_cancel]
    exact ih

theorem joinAll_free {id : Uuid} {port' : Nat} (hosts : List IpAddr) : (joinAll id port' hosts).Within
    (share lib scanId ip port).Free (fun f => (share lib scanId ip port).grant f = 0) fun _ => False := by
  induction hosts with
  | nil => exact .ret _
  | cons ip' hosts ih => exact .op ⟨rfl, fun _ => rfl⟩ fun _ => ih

/-- What the tasks do not get is paid at the end. -/
theorem countP_isTarget (scanId : Uuid) (ip : IpAddr) (port : Nat) (id : Uuid) (port' : Nat) {hosts : List IpAddr}
    (nodup : hosts.Nodup) :
    (id == scanId && !(hosts.contains ip && port' == port)).toNat + hosts.countP (fun ip' => isTarget scanId ip port id ip' port') =
      (id == scanId).toNat := by
  by_cases ours : id = scanId ∧ port' = port
  · obtain ⟨rfl, rfl⟩ := ours
    have count : hosts.countP (fun ip' => isTarget id ip port' id ip' port') = hosts.count ip := by
      simp [isTarget, List.count]
    rw [count]
    by_cases mem : ip ∈ hosts
    · rw [List.count_eq_one_of_mem nodup mem]
      simp [mem]
    · rw [List.count_eq_zero.mpr mem]
      simp [mem]
  · have none : hosts.countP (fun ip' => isTarget scanId ip port id ip' port') = 0 := by
      refine List.countP_eq_zero.mpr fun ip' _ target => ours ?_
      simp only [isTarget, Bool.and_eq_true, beq_iff_eq] at target
      exact ⟨target.1.1, target.2⟩
    rw [none]
    by_cases same : id = scanId
    · have other : ¬ port' = port := fun eq => ours ⟨same, eq⟩
      simp [same, other]
    · have other : (id == scanId) = false := beq_eq_false_iff_ne.mpr same
      rw [other]
      rfl

theorem body_balanced (distinct : ∀ cidr, (lib.hosts cidr).Nodup) (f : Fn) :
    (body lib f).Balanced (share lib scanId ip port) ((share lib scanId ip port).grant f) := by
  cases f with
  | probe id ip' port' => exact probe_balanced id ip' port'
  | startCidrScan auth req =>
    change (startCidrScan lib auth req).Balanced _ 0
    unfold startCidrScan
    cases checkScan lib auth req with
    | error e => rfl
    | ok target =>
      obtain ⟨cidr, port'⟩ := target
      refine .earn rfl fun id => ?_
      change (runCidrScan lib id cidr port').Balanced _ (0 + (id == scanId).toNat)
      rw [Nat.zero_add, ← countP_isTarget scanId ip port id port' (distinct cidr)]
      refine spawnAll_balanced (.frame (joinAll_free _) fun _ => ?_)
      exact .pay rfl (fun _ => rfl) fun _ => rfl

theorem solvent (distinct : ∀ cidr, (lib.hosts cidr).Nodup) :
    (server lib opens).Solvent (share lib scanId ip port) where
  balanced := body_balanced distinct
  called s f w called := by
    cases f with
    | startCidrScan auth req => rfl
    | probe id ip' port' => cases called.1
  abandoned f never := by cases never

end balanced

/-! ## Steps -/

section steps

variable {lib : IpNetLib} {opens : SocketAddr → Bool} {e : Ev}

/-- What one step does to the world. -/
inductive Moves (e : Ev) : Prop
  | named {tid : Nat} {id : Uuid} (label : e.label = .op tid .newScanId id) (new : id ∉ e.pre.world.scanIds)
      (world : e.post.world = { e.pre.world with scanIds := id :: e.pre.world.scanIds })
  | stored {tid : Nat} {scanId : Uuid} {ip ipAddress : IpAddr} {fqdn : Option String} {port : Nat}
      (label : e.label = .op tid (.insertResult scanId ip fqdn port) (.ok ())) (cast : IpAddr.parse ip.text = some ipAddress)
      (world : e.post.world = { e.pre.world with results := ⟨scanId, ipAddress, fqdn, port⟩ :: e.pre.world.results })
  | finished {tid : Nat} {scanId : Uuid} {ip : IpAddr} {port : Nat} {stored : Bool}
      (label : e.label = .op tid (.finish scanId ip port stored) ())
      (world : e.post.world = { e.pre.world with finished := (scanId, ip, port) :: e.pre.world.finished })
  | other (unnamed : ∀ tid id, e.label ≠ .op tid .newScanId id)
      (results : e.post.world.results = e.pre.world.results) (scanIds : e.post.world.scanIds = e.pre.world.scanIds)
      (fewer : e.post.world.finished ⊆ e.pre.world.finished)

theorem execute_of_step {tid : Nat} {o : Op} {r : o.Resp} (step : Step (server lib opens) e.pre e.label e.post)
    (label : e.label = .op tid o r) : ∃ a, execute opens e.pre.world o a = some (r, e.post.world) := by
  rw [label] at step
  obtain ⟨_, _, w, -, ⟨a, executed⟩, post⟩ := step.op_inv
  rw [post]
  exact ⟨a, executed⟩

theorem Moves.of_eq (unnamed : ∀ tid id, e.label ≠ .op tid .newScanId id) (same : e.post.world = e.pre.world) : Moves e :=
  .other unnamed (by rw [same]) (by rw [same]) (by rw [same]; exact List.Subset.refl _)

theorem moves_of_execute {tid : Nat} {o : Op} {r : o.Resp} {a : Answer} (label : e.label = .op tid o r)
    (executed : execute opens e.pre.world o a = some (r, e.post.world)) : Moves e := by
  cases o with
  | newScanId =>
    cases a with
    | id id =>
      simp only [execute, Option.ite_none_left_eq_some, Option.some.injEq, Prod.mk.injEq] at executed
      obtain ⟨new, rfl, world⟩ := executed
      exact .named label new world.symm
    | _ => cases executed
  | insertResult scanId ip fqdn port =>
    cases a with
    | ok =>
      cases cast : IpAddr.parse ip.text with
      | none =>
        simp only [execute, cast, Option.some.injEq, Prod.mk.injEq] at executed
        exact .of_eq (by simp [label]) executed.2.symm
      | some ipAddress =>
        simp only [execute, cast, Option.some.injEq, Prod.mk.injEq] at executed
        obtain ⟨rfl, world⟩ := executed
        exact .stored label cast world.symm
    | failed reason =>
      simp only [execute, Option.some.injEq, Prod.mk.injEq] at executed
      exact .of_eq (by simp [label]) executed.2.symm
    | _ => cases executed
  | finish scanId ip port stored =>
    cases a with
    | ok => exact .finished label (Prod.mk.inj (Option.some.inj executed)).2.symm
    | _ => cases executed
  | connect addr | reverseLookup ip | ended scanId cidr port =>
    refine .of_eq (by simp [label]) ?_
    cases a <;> first | exact (Prod.mk.inj (Option.some.inj executed)).2.symm | cases executed
  | join scanId ip port =>
    refine .of_eq (by simp [label]) ?_
    cases a with
    | ok =>
      simp only [execute, Option.ite_none_right_eq_some, Option.some.injEq, Prod.mk.injEq] at executed
      exact executed.2.2.symm
    | _ => cases executed
  | acquire scanId =>
    cases a with
    | ok =>
      simp only [execute, Option.ite_none_right_eq_some, Option.some.injEq, Prod.mk.injEq] at executed
      obtain ⟨-, -, world⟩ := executed
      exact .other (by simp [label]) (by rw [← world]) (by rw [← world]) (by rw [← world]; exact List.Subset.refl _)
    | _ => cases executed
  | release scanId =>
    cases a with
    | ok =>
      have world := (Prod.mk.inj (Option.some.inj executed)).2
      exact .other (by simp [label]) (by rw [← world]) (by rw [← world]) (by rw [← world]; exact List.Subset.refl _)
    | _ => cases executed

theorem moves_of_step {s t : State} {l : Label Op Op.Resp Fn} (step : Step (server lib opens) s l t) :
    Moves ⟨s, l, t⟩ := by
  cases step with
  | op at_ done =>
    obtain ⟨a, executed⟩ := done
    exact moves_of_execute rfl executed
  | enter called => exact .of_eq nofun called.2
  | drift moved => exact .of_eq nofun moved
  | restart => exact .other nofun rfl rfl nofun
  | spawn | jump | abandon => exact .of_eq nofun rfl

end steps

/-! ## Rows and what pays for them -/

section rows

variable {lib : IpNetLib} {opens : SocketAddr → Bool} {s t : State} {h : History} {scanId : Uuid} {ip : IpAddr} {port : Nat}

def rowIs (scanId : Uuid) (ip : IpAddr) (port : Nat) (row : DiscoveryResult) : Bool :=
  row.scanId == scanId && row.ipAddress == ip && row.agentPort == port

/-- The end of the scan, where the address is not one of those it has scanned. -/
def endsWithout (lib : IpNetLib) (scanId : Uuid) (ip : IpAddr) (port : Nat) (e : Ev) : Bool :=
  match e.label with
  | .op _ (.ended id cidr port') _ => id == scanId && !((lib.hosts cidr).contains ip && port' == port)
  | _ => false

theorem mem_of_reaches (reached : reaches opens ip port = true) : ∃ bits, ip = .v4 bits := by
  cases ip with
  | v4 bits => exact ⟨bits, rfl⟩
  | v6 bits =>
    rw [reaches, SocketAddr.parse_v6] at reached
    cases reached

/-- An address is stored only if it is reached. -/
theorem reaches_of_insert (start : s.tasks = []) (run : Run (server lib opens) s h t) {e : Ev} (mem : e ∈ h) {tid : Nat}
    {fqdn : Option String} {r : Except String Unit} (label : e.label = .op tid (.insertResult scanId ip fqdn port) r) :
    reaches opens ip port = true := by
  obtain ⟨h₁, h₂, rfl⟩ := List.append_of_mem mem
  obtain ⟨task, -, shape_of⟩ := run.shaped start body_shaped label
  obtain ⟨addr, parsed, told⟩ : Probed ip port (exchanges tid h₁) true := by
    cases root : task.root <;> rw [root] at shape_of <;> exact shape_of
  obtain ⟨m₁, x, m₂, rfl, label'⟩ := exists_event_of_mem told
  obtain ⟨before, -⟩ := run.split_event
  obtain ⟨a, executed⟩ := execute_of_step (before.step_of_mem (by simp)) label'
  have opened : opens addr = true := by
    cases a with
    | ok => exact (Prod.mk.inj (Option.some.inj executed)).1
    | _ => cases executed
  simp [reaches, parsed, opened]

/-- An end without the address is paid for. -/
theorem endsWithout_le_spent (lib : IpNetLib) (scanId : Uuid) (ip : IpAddr) (port : Nat) (e : Ev) :
    (endsWithout lib scanId ip port e).toNat ≤ e.label.spent (share lib scanId ip port) := by
  unfold endsWithout
  split
  · rename_i label
    rw [label]
    exact Nat.le_refl _
  · exact Nat.zero_le _

/-- A step pays for the row that it stores. -/
theorem Moves.paid {e : Ev} (moves : Moves e) (reached : ∀ tid id ip' fqdn port' r,
      e.label = .op tid (.insertResult id ip' fqdn port') r → reaches opens ip' port' = true) :
    e.post.world.results.countP (rowIs scanId ip port) + (endsWithout lib scanId ip port e).toNat ≤
      e.label.spent (share lib scanId ip port) + e.pre.world.results.countP (rowIs scanId ip port) := by
  have own := endsWithout_le_spent lib scanId ip port e
  cases moves with
  | named label new world =>
    have same : e.post.world.results = e.pre.world.results := by rw [world]
    rw [same]
    omega
  | @stored tid id ip' ipAddress fqdn port' label cast world =>
    obtain ⟨bits, rfl⟩ := mem_of_reaches (reached _ _ _ _ _ _ label)
    obtain rfl : .v4 bits = ipAddress := Option.some.inj ((SocketAddr.parse_textV4 bits).symm.trans cast)
    have none : endsWithout lib scanId ip port e = false := by rw [endsWithout, label]
    have paid : e.label.spent (share lib scanId ip port) = (isTarget scanId ip port id (.v4 bits) port').toNat := by
      rw [label]
      rfl
    have row : rowIs scanId ip port ⟨id, .v4 bits, fqdn, port'⟩ = isTarget scanId ip port id (.v4 bits) port' := by
      rw [Bool.eq_iff_iff]
      simp [rowIs, isTarget]
    rw [world, none, paid, List.countP_cons, row]
    cases isTarget scanId ip port id (.v4 bits) port' <;> simp [Nat.add_comm]
  | finished label world =>
    have same : e.post.world.results = e.pre.world.results := by rw [world]
    rw [same]
    omega
  | other unnamed results scanIds fewer =>
    rw [results]
    omega

/-- The rows of an address, and ends without it, are paid for. -/
theorem rows_le_spent (start : s.tasks = []) (run : Run (server lib opens) s h t) :
    t.world.results.countP (rowIs scanId ip port) + h.countP (endsWithout lib scanId ip port) ≤
      spent (share lib scanId ip port) h + s.world.results.countP (rowIs scanId ip port) := by
  have all := run
  induction run with
  | nil => simp [spent]
  | @snoc h t u l run step ih =>
    have paid : u.world.results.countP (rowIs scanId ip port) + (endsWithout lib scanId ip port ⟨t, l, u⟩).toNat ≤
        l.spent (share lib scanId ip port) + t.world.results.countP (rowIs scanId ip port) :=
      (moves_of_step step).paid fun _ _ _ _ _ _ label => reaches_of_insert start all (by simp) label
    have before := ih run
    rw [spent_snoc, List.countP_append, List.countP_singleton]
    cases ends : endsWithout lib scanId ip port ⟨t, l, u⟩ <;> rw [ends] at paid <;> simp at paid ⊢ <;> omega

/-- An identifier is given once. -/
theorem earned_le (run : Run (server lib opens) s h t) :
    earned (share lib scanId ip port) h ≤ (decide (scanId ∈ t.world.scanIds)).toNat := by
  refine run.preserves_history (I := fun h s => earned (share lib scanId ip port) h ≤
    (decide (scanId ∈ s.world.scanIds)).toNat) (Nat.zero_le _) ?_
  rintro h₁ e - step before
  rw [earned_snoc]
  cases moves_of_step step with
  | @named tid id label new world =>
    have earns : e.label.earned (share lib scanId ip port) = (id == scanId).toNat := by
      rw [label]
      rfl
    rw [earns, world]
    by_cases same : id = scanId
    · subst same
      rw [decide_eq_false new] at before
      simpa using before
    · have unearned : (id == scanId) = false := beq_eq_false_iff_ne.mpr same
      have other : ¬ scanId = id := fun eq => same eq.symm
      simpa [unearned, other] using before
  | stored label cast world =>
    have earns : e.label.earned (share lib scanId ip port) = 0 := by
      rw [label]
      rfl
    rw [earns, world]
    exact before
  | finished label world =>
    have earns : e.label.earned (share lib scanId ip port) = 0 := by
      rw [label]
      rfl
    rw [earns, world]
    exact before
  | other unnamed results scanIds fewer =>
    have earns : e.label.earned (share lib scanId ip port) = 0 := by
      cases label : e.label with
      | op tid o r => cases o <;> first | rfl | exact absurd label (unnamed _ _)
      | _ => rfl
    rw [earns, scanIds]
    exact before

/-- Without a restart there is one row of an address at most, and none where the scan ends without
    the address. -/
theorem rows_le_one (distinct : ∀ cidr, (lib.hosts cidr).Nodup) (start : s.tasks = [])
    (run : Run (server lib opens) s h t) (lasting : ∀ e ∈ h, e.label ≠ .restart)
    (none : s.world.results.countP (rowIs scanId ip port) = 0) :
    t.world.results.countP (rowIs scanId ip port) + h.countP (endsWithout lib scanId ip port) ≤ 1 := by
  obtain ⟨balance, -, total⟩ := run.account (solvent distinct) start
    (A := share lib scanId ip port) fun h₁ e h₂ split restart => absurd restart (lasting e (by simp [split]))
  have paid : _ ≤ spent (share lib scanId ip port) h + _ := rows_le_spent start run
  have once : earned (share lib scanId ip port) h ≤ _ := earned_le run
  have one := Bool.toNat_le (decide (scanId ∈ t.world.scanIds))
  omega

/-! ## Complete scans -/

theorem Moves.results_subset {e : Ev} (moves : Moves e) : e.pre.world.results ⊆ e.post.world.results := by
  cases moves with
  | named label new world | finished label world => rw [world]; exact List.Subset.refl _
  | stored label cast world => rw [world]; exact List.subset_cons_self _ _
  | other unnamed results scanIds fewer => rw [results]; exact List.Subset.refl _

theorem Moves.scanIds_subset {e : Ev} (moves : Moves e) : e.pre.world.scanIds ⊆ e.post.world.scanIds := by
  cases moves with
  | named label new world => rw [world]; exact List.subset_cons_self _ _
  | stored label cast world | finished label world => rw [world]; exact List.Subset.refl _
  | other unnamed results scanIds fewer => rw [scanIds]; exact List.Subset.refl _

/-- What is stored stays. -/
theorem results_after (run : Run (server lib opens) s h t) {e : Ev} (mem : e ∈ h) :
    e.post.world.results ⊆ t.world.results := by
  obtain ⟨h₁, h₂, rfl⟩ := List.append_of_mem mem
  obtain ⟨-, -, rest⟩ := run.split_event
  exact rest.preserves (I := fun t => e.post.world.results ⊆ t.world.results)
    (fun e _ step before => List.Subset.trans before (moves_of_step step).results_subset) (List.Subset.refl _)

/-- A scan that is over has been asked for and is new, and its tasks are over. -/
theorem ended_inv (start : s.tasks = []) (run : Run (server lib opens) s h t) {e : Ev} (mem : e ∈ h) {tid : Nat}
    {cidr : IpNet} (label : e.label = .op tid (.ended scanId cidr port) ()) :
    port < 65536 ∧ scanId ∉ s.world.scanIds ∧ ∀ ip ∈ lib.hosts cidr, ∃ x ∈ h, x.label = .op tid (.join scanId ip port) () := by
  obtain ⟨h₁, h₂, rfl⟩ := List.append_of_mem mem
  obtain ⟨task, -, shape_of⟩ := run.shaped start body_shaped label
  cases root : task.root with
  | probe id ip port =>
    rw [root] at shape_of
    exact shape_of.elim
  | startCidrScan auth req =>
    rw [root] at shape_of
    obtain ⟨checked, named, joined⟩ := shape_of
    refine ⟨?_, ?_, fun ip scanned => ?_⟩
    · unfold checkScan at checked
      split_ifs at checked
      split at checked
      · cases checked
      · obtain ⟨-, rfl⟩ := Prod.mk.inj (Except.ok.inj checked)
        unfold asU16
        omega
    · obtain ⟨m₁, x, m₂, rfl, label'⟩ := exists_event_of_mem named
      obtain ⟨before, -⟩ := run.split_event
      obtain ⟨first, step, -⟩ := before.split_event
      have grown := first.preserves (I := fun t => s.world.scanIds ⊆ t.world.scanIds)
        (fun e _ step before => List.Subset.trans before (moves_of_step step).scanIds_subset) (List.Subset.refl _)
      obtain ⟨a, executed⟩ := execute_of_step step label'
      cases a with
      | id id =>
        simp only [execute, Option.ite_none_left_eq_some, Option.some.injEq, Prod.mk.injEq] at executed
        obtain ⟨new, rfl, -⟩ := executed
        exact fun old => new (grown old)
      | _ => cases executed
    · obtain ⟨m₁, x, m₂, rfl, label'⟩ := exists_event_of_mem (joined ip scanned)
      exact ⟨x, by simp, label'⟩

/-- Every row of a scan is that of a host that has been reached. -/
theorem row_of_scan (distinct : ∀ cidr, (lib.hosts cidr).Nodup) (initial : Initial s) (run : Run (server lib opens) s h t)
    (lasting : ∀ e ∈ h, e.label ≠ .restart) {e : Ev} (mem : e ∈ h) {tid : Nat} {cidr : IpNet}
    (label : e.label = .op tid (.ended scanId cidr port) ()) {row : DiscoveryResult} (there : row ∈ t.world.results)
    (own : row.scanId = scanId) :
    row.ipAddress ∈ lib.hosts cidr ∧ row.agentPort = port ∧ reaches opens row.ipAddress port = true := by
  obtain ⟨-, new, -⟩ := ended_inv initial.tasks run mem label
  have absent : row ∉ s.world.results := fun old => new (own ▸ initial.results row old)
  obtain ⟨h₁, e', h₂, rfl, before, after⟩ := run.exists_change (P := fun s => row ∈ s.world.results) absent there
  obtain ⟨-, step, -⟩ := run.split_event
  cases moves_of_step step with
  | named label' new world =>
    rw [world] at after
    exact absurd after before
  | finished label' world =>
    rw [world] at after
    exact absurd after before
  | other unnamed results scanIds fewer =>
    rw [results] at after
    exact absurd after before
  | @stored tid' id ip' ipAddress fqdn port' label' cast world =>
    rw [world] at after
    obtain rfl | old := List.mem_cons.mp after
    swap
    · exact absurd old before
    obtain rfl : id = scanId := own
    have reached := reaches_of_insert initial.tasks run (by simp) label'
    obtain ⟨bits, rfl⟩ := mem_of_reaches reached
    obtain rfl : .v4 bits = ipAddress := Option.some.inj ((SocketAddr.parse_textV4 bits).symm.trans cast)
    -- the row is there, so the scan has not ended without its address
    have counted : 0 < t.world.results.countP (rowIs id (.v4 bits) port') :=
      List.countP_pos_iff.mpr ⟨_, there, by simp [rowIs]⟩
    have none : s.world.results.countP (rowIs id (.v4 bits) port') = 0 := by
      refine List.countP_eq_zero.mpr fun row old is => new ?_
      simp only [rowIs, Bool.and_eq_true, beq_iff_eq] at is
      exact is.1.1 ▸ initial.results row old
    have paid := rows_le_one distinct initial.tasks run lasting none
    have within : endsWithout lib id (.v4 bits) port' e = false := by
      have zero : (h₁ ++ e' :: h₂).countP (endsWithout lib id (.v4 bits) port') = 0 := by omega
      simpa using List.countP_eq_zero.mp zero e mem
    rw [endsWithout, label] at within
    simp only [beq_self_eq_true, Bool.true_and, Bool.not_eq_false', Bool.and_eq_true, List.contains_iff_mem, beq_iff_eq] at within
    obtain ⟨scanned, rfl⟩ := within
    exact ⟨scanned, rfl, reached⟩

/-- The task of an address that is over has stored it, if it can be reached. -/
theorem row_of_finished (start : s.tasks = []) (run : Run (server lib opens) s h t) (quiet : ∀ e ∈ h, undisturbed e = true)
    {e : Ev} (mem : e ∈ h) {tid : Nat} {stored : Bool} (label : e.label = .op tid (.finish scanId ip port stored) ())
    (reached : reaches opens ip port = true) : ∃ row ∈ t.world.results, row.scanId = scanId ∧ row.ipAddress = ip := by
  obtain ⟨h₁, h₂, rfl⟩ := List.append_of_mem mem
  obtain ⟨task, -, shape_of⟩ := run.shaped start body_shaped label
  have known : Stored scanId ip port (exchanges tid h₁) stored := by
    cases root : task.root <;> rw [root] at shape_of <;> exact shape_of
  cases stored with
  | false =>
    -- it has not been reached
    obtain ⟨addr, parsed, opened⟩ := (Option.any_eq_true _ _).mp reached
    obtain ⟨m₁, x, m₂, rfl, told⟩ := exists_event_of_mem (known addr parsed)
    obtain ⟨a, executed⟩ := execute_of_step (run.step_of_mem (by simp)) told
    cases a with
    | ok =>
      have closed := (Prod.mk.inj (Option.some.inj executed)).1
      rw [opened] at closed
      cases closed
    | _ => cases executed
  | true =>
    obtain ⟨fqdn, r, written⟩ := known
    obtain ⟨m₁, x, m₂, rfl, told⟩ := exists_event_of_mem written
    obtain ⟨a, executed⟩ := execute_of_step (run.step_of_mem (by simp)) told
    have fine := quiet x (by simp)
    rw [undisturbed, told] at fine
    obtain ⟨bits, rfl⟩ := mem_of_reaches reached
    cases r with
    | error reason => cases fine
    | ok =>
      cases a with
      | ok =>
        simp only [execute, SocketAddr.parse_textV4, Option.some.injEq, Prod.mk.injEq, true_and] at executed
        exact ⟨⟨scanId, .v4 bits, fqdn, port⟩, results_after run (e := x) (by simp) (by rw [← executed]; simp), rfl, rfl⟩
      | _ => cases executed

/-- Every host that is reached has a row. -/
theorem row_of_reaches (initial : Initial s) (run : Run (server lib opens) s h t) (quiet : ∀ e ∈ h, undisturbed e = true)
    {e : Ev} (mem : e ∈ h) {tid : Nat} {cidr : IpNet} (label : e.label = .op tid (.ended scanId cidr port) ())
    (scanned : ip ∈ lib.hosts cidr) (reached : reaches opens ip port = true) :
    ∃ row ∈ t.world.results, row.scanId = scanId ∧ row.ipAddress = ip := by
  obtain ⟨-, -, joined⟩ := ended_inv initial.tasks run mem label
  obtain ⟨x, mem', label'⟩ := joined ip scanned
  have finished : (scanId, ip, port) ∈ x.pre.world.finished := by
    obtain ⟨a, executed⟩ := execute_of_step (run.step_of_mem mem') label'
    cases a with
    | ok =>
      simp only [execute, Option.ite_none_right_eq_some] at executed
      exact executed.1
    | _ => cases executed
  obtain ⟨m₁, m₂, rfl⟩ := List.append_of_mem mem'
  obtain ⟨before, -⟩ := run.split_event
  obtain ⟨l₁, y, l₂, rfl, pre, post⟩ := before.exists_change (P := fun s => (scanId, ip, port) ∈ s.world.finished)
    (by simp [initial.finished]) finished
  cases moves_of_step (before.step_of_mem (by simp : y ∈ l₁ ++ y :: l₂)) with
  | named label'' new world =>
    rw [world] at post
    exact absurd post pre
  | stored label'' cast world =>
    rw [world] at post
    exact absurd post pre
  | other unnamed results scanIds fewer => exact absurd (fewer post) pre
  | @finished tid' id ip' port' stored label'' world =>
    rw [world] at post
    obtain same | old := List.mem_cons.mp post
    swap
    · exact absurd old pre
    cases same
    exact row_of_finished initial.tasks run quiet (by simp) label'' reached

/-- A scan that is over has found the hosts that are reached, each of them one time. -/
theorem found_perm (distinct : ∀ cidr, (lib.hosts cidr).Nodup) (initial : Initial s) (run : Run (server lib opens) s h t)
    (quiet : ∀ e ∈ h, undisturbed e = true) {e : Ev} (mem : e ∈ h) {tid : Nat} {cidr : IpNet}
    (label : e.label = .op tid (.ended scanId cidr port) ()) :
    (found t.world scanId).Perm ((lib.hosts cidr).filter fun ip => reaches opens ip port) := by
  have lasting : ∀ e ∈ h, e.label ≠ .restart := by
    intro e mem restart
    have fine := quiet e mem
    rw [undisturbed, restart] at fine
    cases fine
  have rows {row : DiscoveryResult} (there : row ∈ t.world.results) (own : row.scanId = scanId) :=
    row_of_scan distinct initial run lasting mem label there own
  obtain ⟨-, new, -⟩ := ended_inv initial.tasks run mem label
  have nodup : (found t.world scanId).Nodup := by
    refine List.nodup_iff_count_le_one.mpr fun ip => ?_
    have none : s.world.results.countP (rowIs scanId ip port) = 0 := by
      refine List.countP_eq_zero.mpr fun row old is => new ?_
      simp only [rowIs, Bool.and_eq_true, beq_iff_eq] at is
      exact is.1.1 ▸ initial.results row old
    have once := rows_le_one distinct initial.tasks run lasting none
    have count : (found t.world scanId).count ip = t.world.results.countP (rowIs scanId ip port) := by
      rw [found, List.count, List.countP_map, List.countP_filter]
      refine List.countP_congr fun row there => ?_
      simp only [Function.comp_apply, Bool.and_eq_true, beq_iff_eq, rowIs]
      exact ⟨fun both => ⟨⟨both.2, both.1⟩, (rows there both.2).2.1⟩, fun all => ⟨all.1.2, all.1.1⟩⟩
    omega
  refine (List.perm_ext_iff_of_nodup nodup ((distinct cidr).filter _)).mpr fun ip => ?_
  rw [List.mem_filter, found, List.mem_map]
  constructor
  · rintro ⟨row, there, rfl⟩
    obtain ⟨there, own⟩ := List.mem_filter.mp there
    obtain ⟨scanned, -, reached⟩ := rows there (beq_iff_eq.mp own)
    exact ⟨scanned, reached⟩
  · rintro ⟨scanned, reached⟩
    obtain ⟨row, there, own, rfl⟩ := row_of_reaches initial run quiet mem label scanned reached
    exact ⟨row, List.mem_filter.mpr ⟨there, beq_iff_eq.mpr own⟩, rfl⟩

/-- In every run in which the database does not fail, a scan that is over is complete exactly when
    the hosts that take a connection have IPv4 addresses. -/
theorem scan_complete_iff (distinct : ∀ cidr, (lib.hosts cidr).Nodup) (initial : Initial s)
    (run : Run (server lib opens) s h t) (quiet : ∀ e ∈ h, undisturbed e = true) {e : Ev} (mem : e ∈ h) {tid : Nat}
    {cidr : IpNet} (label : e.label = .op tid (.ended scanId cidr port) ()) :
    Complete lib opens cidr port scanId t.world ↔
      ∀ ip ∈ lib.hosts cidr, opens ⟨ip, port⟩ = true → ∃ bits, ip = .v4 bits := by
  have perm := found_perm distinct initial run quiet mem label
  obtain ⟨small, -, -⟩ := ended_inv initial.tasks run mem label
  constructor
  · intro complete ip scanned opened
    have mem := (complete.symm.trans perm).mem_iff.mp (List.mem_filter.mpr ⟨scanned, opened⟩)
    exact mem_of_reaches (List.mem_filter.mp mem).2
  · intro ipv4
    have same : (lib.hosts cidr).filter (fun ip => reaches opens ip port) =
        (lib.hosts cidr).filter fun ip => opens ⟨ip, port⟩ := by
      refine List.filter_congr fun ip scanned => ?_
      cases ip with
      | v4 bits => rw [reaches, SocketAddr.parse_v4 bits small, Option.any_some]
      | v6 bits =>
        -- a connection that nobody tries
        rw [reaches, SocketAddr.parse_v6, Option.any_none]
        refine (Bool.eq_false_iff.mpr fun opened => ?_).symm
        obtain ⟨bits', v4⟩ := ipv4 _ scanned opened
        cases v4
    rw [Complete, ← same]
    exact perm
end rows

/-! ## Small runs -/

namespace Small

/-- Every text is a network with this host alone. -/
def lib (host : IpAddr) : IpNetLib where
  parse _ := some ⟨host, 128⟩
  hosts _ := [host]

/-- The host takes connections at the default port. -/
def opens (host : IpAddr) (addr : SocketAddr) : Bool := addr == ⟨host, 12443⟩

def player (host : IpAddr) : Player (server (lib host) (opens host)) where
  Answer := Answer
  Change := Unit
  execute := execute (opens host)
  call s f := if f.isRequest then some s.world else none
  change w _ := w
  execute_sound {_ _ a _ _} executed := ⟨a, executed⟩
  call_sound {_ f _} called := by
    cases f with
    | startCidrScan auth req => exact ⟨rfl, (Option.some.inj called).symm⟩
    | probe scanId ip port => cases called
  change_sound _ _ := rfl

def start : State := ⟨{}, []⟩

def operator : AuthUser := ⟨7, "op", .operator⟩

/-- A scan whose one task does this. -/
def scan (host : IpAddr) (task : List Answer) : List (Move (player host)) :=
  [.call (.startCidrScan operator { cidr := "net" }), .run 0 (.id 1), .run 0 .ok] ++ task.map (.run 1 ·) ++
    [.run 0 .ok, .run 0 .ok]

def ipv4 : IpAddr := .v4 0x0A000001#32

def ipv6 : IpAddr := .v6 1#128

def scanIpv4 : List (Move (player ipv4)) := scan ipv4 [.ok, .ok, .name none, .ok, .ok, .ok]

def scanIpv6 : List (Move (player ipv6)) := scan ipv6 [.ok, .ok, .ok]

def endsScan (host : IpAddr) (e : Ev) : Bool :=
  match e.label with
  | .op _ (.ended scanId cidr port) _ => scanId == 1 && cidr == ⟨host, 128⟩ && port == 12443
  | _ => false

theorem exists_end {host : IpAddr} {h : History} (ends : h.any (endsScan host) = true) :
    ∃ e ∈ h, ∃ tid, e.label = .op tid (.ended 1 ⟨host, 128⟩ 12443) () := by
  obtain ⟨e, mem, ends⟩ := List.any_eq_true.mp ends
  refine ⟨e, mem, ?_⟩
  unfold endsScan at ends
  split at ends
  · rename_i tid scanId cidr port r label
    simp only [Bool.and_eq_true, beq_iff_eq] at ends
    obtain ⟨⟨rfl, rfl⟩, rfl⟩ := ends
    exact ⟨tid, label⟩
  · cases ends

theorem initial : Initial start := ⟨rfl, rfl, nofun⟩

theorem distinct (host : IpAddr) (cidr : IpNet) : ((lib host).hosts cidr).Nodup := List.nodup_singleton _

def endOf {host : IpAddr} (moves : List (Move (player host))) : World :=
  (Player.last start ((player host).history start moves)).world

end Small

/-- A network of one host, which has an IPv4 address. -/
theorem scan_complete_ipv4 : Complete (Small.lib Small.ipv4) (Small.opens Small.ipv4) ⟨Small.ipv4, 128⟩ 12443 1
    (Small.endOf Small.scanIpv4) := by
  have plays : ((Small.player Small.ipv4).play Small.start Small.scanIpv4).isSome = true := by decide +kernel
  have ends : ((Small.player Small.ipv4).history Small.start Small.scanIpv4).any (Small.endsScan Small.ipv4) = true := by
    decide +kernel
  have run := (Small.player Small.ipv4).run_of_play plays
  obtain ⟨e, mem, tid, label⟩ := Small.exists_end ends
  refine (scan_complete_iff (Small.distinct Small.ipv4) Small.initial run
    (List.all_eq_true.mp (by decide +kernel)) mem label).mpr fun ip scanned _ => ?_
  exact ⟨_, List.mem_singleton.mp scanned⟩

/-- The host of a network takes a connection at its IPv6 address, and is not found. -/
theorem ipv6_not_found : ¬ ∀ (lib : IpNetLib) (opens : SocketAddr → Bool) (s t : State) (h : History),
    (∀ cidr, (lib.hosts cidr).Nodup) → Initial s → Run (server lib opens) s h t → (∀ e ∈ h, undisturbed e = true) →
    ∀ e ∈ h, ∀ tid scanId cidr port, e.label = .op tid (.ended scanId cidr port) () →
      Complete lib opens cidr port scanId t.world := by
  intro all
  have plays : ((Small.player Small.ipv6).play Small.start Small.scanIpv6).isSome = true := by decide +kernel
  have ends : ((Small.player Small.ipv6).history Small.start Small.scanIpv6).any (Small.endsScan Small.ipv6) = true := by
    decide +kernel
  have run := (Small.player Small.ipv6).run_of_play plays
  obtain ⟨e, mem, tid, label⟩ := Small.exists_end ends
  have complete := all _ _ _ _ _ (Small.distinct Small.ipv6) Small.initial run
    (List.all_eq_true.mp (by decide +kernel)) e mem tid _ _ _ label
  have one := complete.length_eq
  have none : (found (Small.endOf Small.scanIpv6) 1).length = 0 := by decide +kernel
  have host : (((Small.lib Small.ipv6).hosts ⟨Small.ipv6, 128⟩).filter fun ip => Small.opens Small.ipv6 ⟨ip, 12443⟩).length = 1 := by
    decide +kernel
  rw [host] at one
  exact absurd (none.symm.trans one) (by decide)

end PatchManager.Discovery
