import PatchManager.Web.Hosts

/-! # Which hosts the pages of the list have

The query for a page appends the filters to an alternative, so for an operator they restrict the
hosts in no group alone; the query for the total has parentheses.  Two of the filters are not looked
at, one is compared with a value of another type, and hosts that tie may move between pages.

Main results:

* `list_exact_iff`: exactly when the pages and the totals are those of the hosts asked for.
* `grouped_unfiltered`: a host of the operator's group is on a page though the filter excludes it.
-/

namespace PatchManager.Hosts

open PatchManager.Conc
open PatchManager.Sql (Cond SortOrder page pages)

variable (pg : Postgres) (db : Database) (auth : AuthUser) (q : HostListQuery)

/-! ## The hosts asked for -/

def Database.patch (hostId : Uuid) : Option PatchRow := db.patchData.find? (·.hostId == hostId)

def Database.join (h : HostRow) : Joined := ⟨h, db.patch h.id⟩

def Database.item (h : HostRow) : HostSummary := db.summary (db.join h)

def inScope (h : HostRow) : Bool := auth.role.isAdmin || db.operatorCanAccessHost auth.userId h.id

/-- An empty text stands for no filter, here and of the others. -/
def searchHolds (h : HostRow) : Bool :=
  match q.search with
  | some s => s == "" || pg.ilike h.fqdn ("%" ++ s ++ "%") || pg.ilike h.displayName ("%" ++ s ++ "%")
  | none => true

def patchesHold (h : HostRow) : Bool :=
  match q.patchesMissing with
  | some "missing" => (db.join h).patchCount > 0
  | some "uptodate" => (db.join h).patchCount == 0
  | _ => true

def statusHolds (h : HostRow) : Bool :=
  match q.healthStatus with
  | some s => s == "" || h.healthStatus.text == s
  | none => true

def groupHolds (h : HostRow) : Bool :=
  match q.groupId with
  | some g => db.hostGroups.any fun hg => hg.hostId == h.id && hg.groupId == g
  | none => true

def osFamilyHolds (h : HostRow) : Bool :=
  match q.osFamily with
  | some f => f == "" || h.osFamily == some f
  | none => true

/-- The hosts of the caller's scope that satisfy all filters. -/
def wanted : List HostRow :=
  db.hosts.filter fun h => inScope db auth h && searchHolds pg q h && patchesHold db q h &&
    statusHolds q h && groupHolds db q h && osFamilyHolds q h

def pageSize : Nat := (min (q.limit.getD 50) 200).toNat

/-- The request for page `k`. -/
def pageRequest (k : Nat) : HostListQuery := { q with offset := some (pageSize q * k : Nat) }

/-- However the database answers, enough pages have exactly the hosts asked for, each once, and
    every one has their number as the total. -/
def Exact : Prop :=
  ∀ (count : Nat), (wanted pg db auth q).length ≤ pageSize q * count →
    ∀ answers : Nat → Except ApiError HostListResponse,
      (∀ k < count, Gives pg db auth (pageRequest q k) (answers k)) →
      ∃ responses : Nat → HostListResponse,
        (∀ k < count, answers k = .ok (responses k) ∧
          (responses k).total = (wanted pg db auth q).length) ∧
        ((List.range count).flatMap fun k => (responses k).hosts.map (·.id)).Perm
          ((wanted pg db auth q).map (·.id))

/-! ## When they are exact -/

/-- The filters that the queries have, but for the status. -/
def applied (h : HostRow) : Bool := searchHolds pg q h && patchesHold db q h

structure Faultless : Prop where
  noStatus : q.healthStatus.getD "" = ""
  sortable : auth.role.isAdmin = true ∨ (orderBy q).column ≠ .pendingReboot
  grouped : auth.role.isAdmin = false → ∀ h ∈ db.hosts, db.inGroup auth.userId h.id = true →
    applied pg db q h = true
  ignored : ∀ h ∈ db.hosts, inScope db auth h = true → applied pg db q h = true →
    groupHolds db q h = true ∧ osFamilyHolds q h = true
  separates : ((orderBy q).order pg).Separates (pageSize q) ((wanted pg db auth q).map db.item)

/-! ## Rows -/

section rows

variable {pg db auth q}

theorem filter_key {α : Type} {key : α → Uuid} {l : List α} (nodup : (l.map key).Nodup) (id : Uuid) :
    l.filter (key · == id) = (l.find? (key · == id)).toList := by
  induction l with
  | nil => rfl
  | cons a l ih =>
    obtain ⟨fresh, rest⟩ := List.nodup_cons.mp nodup
    by_cases own : key a = id
    · have none : l.filter (key · == id) = [] := by
        refine List.filter_eq_nil_iff.mpr fun b mem same => fresh ?_
        rw [own, ← beq_iff_eq.mp same]
        exact List.mem_map_of_mem mem
      simp [own, none]
    · simp [own, ih rest]

/-- A host is joined with its one row of patch data, or with none. -/
theorem joined_eq : db.joined = db.hosts.map db.join := by
  rw [Database.joined, List.map_eq_flatMap]
  refine congrArg db.hosts.flatMap (funext fun h => ?_)
  rw [filter_key db.patchKeys, Database.join, Database.patch]
  cases db.patchData.find? (·.hostId == h.id) <;> rfl

theorem items_nodup (test : HostRow → Bool) : ((db.hosts.filter test).map db.item).Nodup := by
  have keys : ((db.hosts.filter test).map (·.id)).Nodup :=
    db.hostKeys.sublist ((List.filter_sublist (p := test)).map _)
  refine List.Nodup.of_map (·.id) ?_
  rwa [List.map_map]

theorem matching_eq {condition : Cond Atom} {binds : List Value} {test : HostRow → Bool}
    (means : ∀ h, condition.eval (Atom.holds pg db binds (db.join h)) = test h) :
    db.matching pg condition binds = (db.hosts.filter test).map db.join := by
  rw [Database.matching, joined_eq, List.filter_map]
  congr 1
  exact List.filter_congr fun h _ => means h

theorem rows_eq {s : Select} {binds : List Value} {test : HostRow → Bool}
    (means : ∀ h, s.condition.eval (Atom.holds pg db binds (db.join h)) = test h) :
    s.rows pg db binds = (db.hosts.filter test).map db.item := by
  have found : (db.matching pg s.condition binds).map db.summary = (db.hosts.filter test).map db.item := by
    rw [matching_eq means, List.map_map]
    rfl
  rw [Select.rows, found, List.dedup_eq_self.mpr (items_nodup test), ite_self]

end rows

/-! ## Parameters -/

section parameters

variable {pg db auth q}

/-- What a filter says, with its parameter as the only one. -/
def HostFilter.holds (f : HostFilter) (pg : Postgres) (db : Database) (h : HostRow) : Bool :=
  (f.sql 1).eval (Atom.holds pg db [.text f.bind] (db.join h))

def HostFilter.typed (f : HostFilter) : Bool := (f.sql 1).all (Atom.typed [.text f.bind])

/-- A filter means the same wherever its parameter stands. -/
def HostFilter.Uniform (f : HostFilter) (pg : Postgres) (db : Database) : Prop :=
  ∀ binds p, (f.hasPlaceholder = true → param binds p = some (.text f.bind)) →
    (∀ h, (f.sql p).eval (Atom.holds pg db binds (db.join h)) = f.holds pg db h) ∧
      (f.sql p).all (Atom.typed binds) = f.typed

variable (pg db q) in
theorem filters_uniform : ∀ f ∈ filters q, f.Uniform pg db := by
  intro f mem binds p at_
  have first (s : String) : param [.text s] 1 = some (.text s) := rfl
  rcases List.mem_append.mp mem with early | patches
  · rcases List.mem_append.mp early with search | status
    · unfold searchFilter at search
      split at search
      · split at search
        · obtain rfl := List.mem_singleton.mp search
          simp [HostFilter.holds, HostFilter.typed, Cond.eval, Cond.all, Atom.holds, Atom.typed, at_ rfl, first]
        · simp at search
      · simp at search
    · unfold statusFilter at status
      split at status
      · split at status
        · obtain rfl := List.mem_singleton.mp status
          simp [HostFilter.holds, HostFilter.typed, Cond.eval, Cond.all, Atom.holds, Atom.typed, at_ rfl, first]
        · simp at status
      · simp at status
  · unfold patchesFilter at patches
    split at patches
    · obtain rfl := List.mem_singleton.mp patches
      exact ⟨fun _ => rfl, rfl⟩
    · obtain rfl := List.mem_singleton.mp patches
      exact ⟨fun _ => rfl, rfl⟩
    · simp at patches

/-- The conditions with their parameters say what the filters say. -/
theorem assignPlaceholders_spec {fs : List HostFilter} (uniform : ∀ f ∈ fs, f.Uniform pg db)
    {binds : List Value} (before after : List Value) (layout : binds = before ++ filterBinds fs ++ after) :
    (∀ h, (assignPlaceholders fs (before.length + 1)).1.all (·.eval (Atom.holds pg db binds (db.join h))) =
      fs.all (·.holds pg db h)) ∧
    (assignPlaceholders fs (before.length + 1)).1.all (·.all (Atom.typed binds)) = fs.all (·.typed) ∧
    (assignPlaceholders fs (before.length + 1)).2 = (filterBinds fs).length := by
  induction fs generalizing before with
  | nil => exact ⟨fun _ => rfl, rfl, rfl⟩
  | cons f fs ih =>
    obtain ⟨own, others⟩ := List.forall_mem_cons.mp uniform
    cases eq : f.hasPlaceholder with
    | true =>
      have head : filterBinds (f :: fs) = .text f.bind :: filterBinds fs := by simp [filterBinds, eq]
      have layout' : binds = (before ++ [.text f.bind]) ++ filterBinds fs ++ after := by
        simp [layout, head]
      obtain ⟨holds, typed⟩ := own binds (before.length + 1) fun _ => by
        simp [layout, head, param]
      obtain ⟨rest, restTyped, count⟩ := ih others _ layout'
      simp only [List.length_append, List.length_singleton] at rest restTyped count
      refine ⟨fun h => ?_, ?_, ?_⟩
      · simp [assignPlaceholders, eq, holds h, rest h]
      · simp [assignPlaceholders, eq, typed, restTyped]
      · simp [assignPlaceholders, eq, count, head]
        omega
    | false =>
      have head : filterBinds (f :: fs) = filterBinds fs := by simp [filterBinds, eq]
      obtain ⟨holds, typed⟩ := own binds (before.length + 1) (by simp [eq])
      obtain ⟨rest, restTyped, count⟩ := ih others before (by rw [layout, head])
      refine ⟨fun h => ?_, ?_, ?_⟩
      · simp [assignPlaceholders, eq, holds h, rest h]
      · simp [assignPlaceholders, eq, typed, restTyped]
      · simp [assignPlaceholders, eq, count, head]

/-- A status is a text that is compared with another type. -/
theorem filters_typed : (filters q).all (·.typed) = true ↔ q.healthStatus.getD "" = "" := by
  have search : (searchFilter q).all (·.typed) = true := by
    unfold searchFilter
    split
    · split <;> rfl
    · rfl
  have patches : (patchesFilter q).all (·.typed) = true := by
    unfold patchesFilter
    split <;> rfl
  rw [filters, List.all_append, List.all_append, search, patches, Bool.true_and, Bool.and_true, statusFilter]
  cases q.healthStatus with
  | none => simp
  | some hs =>
    by_cases empty : hs = ""
    · simp [empty]
    · simp [empty, HostFilter.typed, Cond.all, Atom.typed, param]

/-- What the filters say where there is none for the status. -/
theorem filters_hold (noStatus : q.healthStatus.getD "" = "") (h : HostRow) :
    (filters q).all (·.holds pg db h) = applied pg db q h := by
  have status : statusFilter q = [] := by
    unfold statusFilter
    cases eq : q.healthStatus with
    | none => rfl
    | some hs => simp_all
  rw [filters, status, List.append_nil, List.all_append, applied]
  congr 1
  · unfold searchFilter searchHolds
    cases q.search with
    | none => rfl
    | some s =>
      by_cases empty : s = ""
      · simp [empty]
      · simp [empty, beq_false_of_ne empty, HostFilter.holds, Cond.eval, Atom.holds, param, Database.join]
  · unfold patchesFilter
    split
    · next missing => simp [patchesHold, missing, HostFilter.holds, Cond.eval, Atom.holds]
    · next uptodate => simp [patchesHold, uptodate, HostFilter.holds, Cond.eval, Atom.holds]
    · next noMissing noUptodate =>
      unfold patchesHold
      split <;> simp_all

end parameters

/-! ## The handler -/

section handler

variable {pg db auth q}

theorem setLatest_id (latest : List ((String × Option String) × String)) (h : HostSummary) :
    (setLatest latest h).id = h.id := by
  unfold setLatest
  split
  · rfl
  · split <;> rfl

/-- The upgrades leave the hosts and their order. -/
theorem computeUpgradeAvailable_ids {hosts found : List HostSummary} {l : List (Exchange Op Op.Resp)}
    (returns : (computeUpgradeAvailable hosts).Returns l found) : found.map (·.id) = hosts.map (·.id) := by
  obtain ⟨latest, l₁, l₂, -, -, last⟩ := returns.bind_inv
  obtain ⟨-, rfl⟩ := last.ret_inv
  simp [setLatest_id]

theorem latestByPair_returns (answer : String × Option String → Option String) (pairs : List (String × Option String)) :
    (latestByPair pairs).Returns (pairs.map fun pair => ⟨.latestVersion pair.1 pair.2, answer pair⟩)
      (pairs.flatMap fun pair => ((answer pair).map (pair, ·)).toList) := by
  induction pairs with
  | nil => exact .ret
  | cons pair pairs ih =>
    have rest : ((latestByPair pairs).bind fun others =>
        .ret (((answer pair).map (pair, ·)).toList ++ others)).Returns _ _ := ih.bind .ret
    rw [List.append_nil] at rest
    exact .op rest

/-- The database can answer what the upgrades ask. -/
theorem computeUpgradeAvailable_returns (pg : Postgres) (db : Database) (hosts : List HostSummary) :
    ∃ l found, (computeUpgradeAvailable hosts).Returns l found ∧ ∀ x ∈ l, Answers pg db x.1 x.2 := by
  refine ⟨_, _, (latestByPair_returns (fun _ => none) _).bind .ret, fun x mem => ?_⟩
  rw [List.append_nil] at mem
  obtain ⟨pair, -, rfl⟩ := List.mem_map.mp mem
  trivial

variable (auth q)

/-- The query for a page. -/
def pageSelect : Select :=
  let (clause, n) := assignPlaceholders (filters q) 1
  { distinct := !auth.role.isAdmin
    condition :=
      if auth.role.isAdmin then (Cond.atom Atom.always).allAnd clause
      else (Cond.or (.atom (.inGroupOf (3 + n))) (.not (.atom Atom.inAnyGroup))).allAnd clause
    orderBy := orderBy q
    limit := 1 + n
    offset := 2 + n }

def pageBinds : List Value :=
  filterBinds (filters q) ++ .bigint (min (q.limit.getD 50) 200) :: .bigint (q.offset.getD 0) ::
    if auth.role.isAdmin then [] else [.uuid auth.userId]

def countCondition : Cond Atom :=
  if auth.role.isAdmin then (Cond.atom Atom.always).allAnd (assignPlaceholders (filters q) 1).1
  else (Cond.group (.or (.atom (.inGroupOf 1)) (.not (.atom Atom.inAnyGroup)))).allAnd
    (assignPlaceholders (filters q) 2).1

def countBinds : List Value :=
  (if auth.role.isAdmin then [] else [.uuid auth.userId]) ++ filterBinds (filters q)

theorem listHosts_eq : listHosts auth q =
    .op (.fetchHosts (pageSelect auth q) (pageBinds auth q)) fun
      | none => .ret (.error .database)
      | some hosts => .op (.fetchCount (countCondition auth q) (countBinds auth q)) fun counted =>
        (computeUpgradeAvailable hosts).bind fun hosts =>
          .ret (.ok ⟨hosts, counted.getD 0, min (q.limit.getD 50) 200, q.offset.getD 0⟩) := by
  unfold listHosts pageSelect pageBinds countCondition countBinds
  cases auth.role.isAdmin with
  | true =>
    refine congrArg (Prog.op _) (funext fun found => ?_)
    cases found <;> rfl
  | false =>
    refine congrArg (Prog.op _) (funext fun found => ?_)
    cases found <;> rfl

/-- The query for a page is one the database carries out. -/
def Sound : Prop :=
  q.healthStatus.getD "" = "" ∧ (auth.role.isAdmin = true ∨ (orderBy q).column ≠ .pendingReboot)

variable (pg db)

/-- What the query for a page selects. -/
def listed (h : HostRow) : Bool :=
  if auth.role.isAdmin then applied pg db q h
  else db.inGroup auth.userId h.id || (db.ungrouped h.id && applied pg db q h)

theorem pageClause :
    (∀ h, (assignPlaceholders (filters q) 1).1.all (·.eval (Atom.holds pg db (pageBinds auth q) (db.join h))) =
      (filters q).all (·.holds pg db h)) ∧
    (assignPlaceholders (filters q) 1).1.all (·.all (Atom.typed (pageBinds auth q))) = (filters q).all (·.typed) ∧
    (assignPlaceholders (filters q) 1).2 = (filterBinds (filters q)).length :=
  assignPlaceholders_spec (filters_uniform pg db q) [] _ (by rw [pageBinds, List.nil_append])

variable {pg db auth q}

theorem param_beyond (binds : List Value) (more : List Value) (i : Nat) :
    param (binds ++ more) (i + 1 + binds.length) = more[i]? := by
  rw [param, if_neg (by omega), List.getElem?_append_right (by omega)]
  congr 1
  omega

theorem param_user (operator : auth.role.isAdmin = false) :
    param (pageBinds auth q) (3 + (filterBinds (filters q)).length) = some (.uuid auth.userId) := by
  rw [pageBinds, param_beyond _ _ 2, operator]
  rfl

theorem wellFormed_iff :
    (pageSelect auth q).wellFormed (pageBinds auth q) = true ↔ Sound auth q := by
  obtain ⟨-, typed, count⟩ := pageClause ⟨fun _ _ => false, (orderOf Nat).by String.length⟩
    ⟨[], [], [], [], [], by simp, by simp⟩ auth q
  have filtersTyped := filters_typed (q := q)
  cases role : auth.role.isAdmin with
  | true =>
    simp [pageSelect, Select.wellFormed, Sound, role, Cond.all, Atom.typed, typed, filtersTyped]
  | false =>
    simp [pageSelect, Select.wellFormed, Sound, role, Cond.all, Atom.typed, typed, count, param_user role,
      filtersTyped]

theorem page_listed (noStatus : q.healthStatus.getD "" = "") (h : HostRow) :
    (pageSelect auth q).condition.eval (Atom.holds pg db (pageBinds auth q) (db.join h)) =
      listed pg db auth q h := by
  obtain ⟨holds, -, count⟩ := pageClause pg db auth q
  unfold listed pageSelect
  cases role : auth.role.isAdmin with
  | true =>
    simp only [if_true]
    rw [Cond.eval_allAnd (Cond.tight_atom _), holds, filters_hold noStatus]
    rfl
  | false =>
    simp only [Bool.false_eq_true, if_false]
    rw [Cond.eval_or_allAnd (Cond.tight_not _), holds, filters_hold noStatus, count]
    simp [Cond.eval, Atom.holds, param_user role, Database.join]

variable (pg db auth q) in
/-- The query for the total counts the hosts of the scope. -/
theorem count_listed (noStatus : q.healthStatus.getD "" = "") :
    (countCondition auth q).all (Atom.typed (countBinds auth q)) = true ∧
      ∀ h, (countCondition auth q).eval (Atom.holds pg db (countBinds auth q) (db.join h)) =
        (inScope db auth h && applied pg db q h) := by
  have typed := filters_typed.mpr noStatus
  unfold countCondition countBinds
  cases role : auth.role.isAdmin with
  | true =>
    obtain ⟨holds, types, -⟩ := assignPlaceholders_spec (filters_uniform pg db q) [] [] rfl
    simp only [List.nil_append, List.append_nil, List.length_nil, Nat.zero_add] at holds types
    simp only [if_true, List.nil_append]
    refine ⟨by simp [Cond.all, Atom.typed, types, typed], fun h => ?_⟩
    rw [Cond.eval_allAnd (Cond.tight_atom _), holds, filters_hold noStatus, inScope, role]
    rfl
  | false =>
    obtain ⟨holds, types, -⟩ := assignPlaceholders_spec (filters_uniform pg db q)
      [.uuid auth.userId] [] rfl
    simp only [List.append_nil, List.length_singleton] at holds types
    have user : param (.uuid auth.userId :: filterBinds (filters q)) 1 = some (.uuid auth.userId) := rfl
    simp only [Bool.false_eq_true, if_false, List.singleton_append] at holds types ⊢
    refine ⟨by simp [Cond.all, Atom.typed, types, typed, user], fun h => ?_⟩
    rw [Cond.eval_allAnd (Cond.tight_group _), holds, filters_hold noStatus, inScope, role]
    simp [Cond.eval, Atom.holds, user, Database.operatorCanAccessHost, Database.join]

/-! ### What a request for a page can be answered -/

theorem natParam_limit (positive : 0 < pageSize q) (k : Nat) :
    natParam (pageBinds auth (pageRequest q k)) (pageSelect auth (pageRequest q k)).limit = some (pageSize q) := by
  obtain ⟨-, -, count⟩ := pageClause ⟨fun _ _ => false, (orderOf Nat).by String.length⟩
    ⟨[], [], [], [], [], by simp, by simp⟩ auth q
  have at_ : param (pageBinds auth (pageRequest q k)) (pageSelect auth (pageRequest q k)).limit =
      some (.bigint (min (q.limit.getD 50) 200)) := by
    have limit : (pageSelect auth (pageRequest q k)).limit = 0 + 1 + (filterBinds (filters q)).length := by
      rw [← count]
      exact congrArg (· + _) rfl
    rw [limit]
    exact param_beyond _ _ 0
  have nonneg : 0 ≤ min (q.limit.getD 50) 200 := by
    unfold pageSize at positive
    omega
  simp only [natParam, at_, if_pos nonneg]
  rfl

theorem natParam_offset (k : Nat) :
    natParam (pageBinds auth (pageRequest q k)) (pageSelect auth (pageRequest q k)).offset =
      some (pageSize q * k) := by
  obtain ⟨-, -, count⟩ := pageClause ⟨fun _ _ => false, (orderOf Nat).by String.length⟩
    ⟨[], [], [], [], [], by simp, by simp⟩ auth q
  have at_ : param (pageBinds auth (pageRequest q k)) (pageSelect auth (pageRequest q k)).offset =
      some (.bigint (pageSize q * k : Nat)) := by
    have offset : (pageSelect auth (pageRequest q k)).offset = 1 + 1 + (filterBinds (filters q)).length := by
      rw [← count]
      exact congrArg (· + _) rfl
    rw [offset]
    exact param_beyond _ _ 1
  simp only [natParam, at_, if_pos (Int.natCast_nonneg _), Int.toNat_natCast]

variable (pg db auth q)

def listedItems : List HostSummary := (db.hosts.filter (listed pg db auth q)).map db.item

/-- The hosts that are counted. -/
def counted : List HostRow := db.hosts.filter fun h => inScope db auth h && applied pg db q h

variable {pg db auth q} {k : Nat}

theorem answers_page (positive : 0 < pageSize q) (sound : Sound auth q) {found : Option (List HostSummary)} :
    Answers pg db (.fetchHosts (pageSelect auth (pageRequest q k)) (pageBinds auth (pageRequest q k))) found ↔
      ∃ sorted, ((orderBy q).order pg).Sorts (listedItems pg db auth q) sorted ∧
        found = some (page (pageSize q) k sorted) := by
  have rows : (pageSelect auth (pageRequest q k)).rows pg db (pageBinds auth (pageRequest q k)) =
      listedItems pg db auth q := rows_eq (page_listed (q := pageRequest q k) sound.1)
  have wellFormed := wellFormed_iff.mpr (show Sound auth (pageRequest q k) from sound)
  simp only [Answers, wellFormed, natParam_limit positive, natParam_offset, rows]
  rfl

theorem answers_unsound (unsound : ¬ Sound auth q) {found : Option (List HostSummary)} :
    Answers pg db (.fetchHosts (pageSelect auth (pageRequest q k)) (pageBinds auth (pageRequest q k))) found ↔
      found = none := by
  have malformed : (pageSelect auth (pageRequest q k)).wellFormed (pageBinds auth (pageRequest q k)) = false :=
    Bool.eq_false_iff.mpr fun wellFormed => unsound (wellFormed_iff (q := pageRequest q k) |>.mp wellFormed)
  simp only [Answers, malformed]

theorem answers_count (sound : Sound auth q) {n : Option Int} :
    Answers pg db (.fetchCount (countCondition auth (pageRequest q k)) (countBinds auth (pageRequest q k))) n ↔
      n = some ((counted pg db auth q).length : Int) := by
  obtain ⟨typed, means⟩ := count_listed pg db auth (pageRequest q k) sound.1
  simp only [Answers, typed, if_true, matching_eq means, List.length_map]
  rfl

theorem gives_inv (positive : 0 < pageSize q) (sound : Sound auth q)
    {answer : Except ApiError HostListResponse} (gives : Gives pg db auth (pageRequest q k) answer) :
    ∃ sorted response, ((orderBy q).order pg).Sorts (listedItems pg db auth q) sorted ∧
      answer = .ok response ∧ response.hosts.map (·.id) = (page (pageSize q) k sorted).map (·.id) ∧
      response.total = (counted pg db auth q).length := by
  obtain ⟨exchanges, returns, answered⟩ := gives
  rw [listHosts_eq] at returns
  obtain ⟨found, rest, rfl, later⟩ := returns.op_inv
  obtain ⟨sorted, sorts, rfl⟩ := (answers_page positive sound).mp (answered ⟨_, found⟩ List.mem_cons_self)
  obtain ⟨n, rest', rfl, last⟩ := later.op_inv
  obtain rfl := (answers_count sound).mp (answered ⟨_, n⟩ (List.mem_cons_of_mem _ List.mem_cons_self))
  obtain ⟨hosts, l₁, l₂, -, upgrades, result⟩ := last.bind_inv
  obtain ⟨-, rfl⟩ := result.ret_inv
  exact ⟨sorted, _, sorts, rfl, computeUpgradeAvailable_ids upgrades, rfl⟩

theorem gives_of_sorts (positive : 0 < pageSize q) (sound : Sound auth q) {sorted : List HostSummary}
    (sorts : ((orderBy q).order pg).Sorts (listedItems pg db auth q) sorted) (k : Nat) :
    ∃ response, Gives pg db auth (pageRequest q k) (.ok response) ∧
      response.hosts.map (·.id) = (page (pageSize q) k sorted).map (·.id) := by
  obtain ⟨l, hosts, upgrades, answered⟩ :=
    computeUpgradeAvailable_returns pg db (page (pageSize q) k sorted)
  have found := (answers_page (k := k) positive sound).mpr ⟨sorted, sorts, rfl⟩
  have total : Answers pg db (.fetchCount (countCondition auth (pageRequest q k)) (countBinds auth (pageRequest q k)))
      (some ((counted pg db auth q).length : Int)) := (answers_count sound).mpr rfl
  refine ⟨⟨hosts, (counted pg db auth q).length, min (q.limit.getD 50) 200, (pageSize q * k : Nat)⟩,
    ⟨⟨.fetchHosts (pageSelect auth (pageRequest q k)) (pageBinds auth (pageRequest q k)),
        some (page (pageSize q) k sorted)⟩ ::
      ⟨.fetchCount (countCondition auth (pageRequest q k)) (countBinds auth (pageRequest q k)),
        some ((counted pg db auth q).length : Int)⟩ :: (l ++ []), ?_, ?_⟩,
    computeUpgradeAvailable_ids upgrades⟩
  · rw [listHosts_eq]
    exact .op (.op (upgrades.bind .ret))
  · rw [List.append_nil]
    exact List.forall_mem_cons.mpr ⟨found, List.forall_mem_cons.mpr ⟨total, answered⟩⟩

theorem gives_error (unsound : ¬ Sound auth q) (k : Nat) :
    Gives pg db auth (pageRequest q k) (.error .database) := by
  refine ⟨[⟨.fetchHosts (pageSelect auth (pageRequest q k)) (pageBinds auth (pageRequest q k)), none⟩], ?_, ?_⟩
  · rw [listHosts_eq]
    exact .op .ret
  · simpa using (answers_unsound unsound).mpr rfl

end handler

/-! ## Exactness -/

section exactness

variable {pg db auth q}

theorem mem_wanted {h : HostRow} : h ∈ wanted pg db auth q ↔
    h ∈ db.hosts ∧ inScope db auth h = true ∧ applied pg db q h = true ∧ statusHolds q h = true ∧
      groupHolds db q h = true ∧ osFamilyHolds q h = true := by
  simp only [wanted, applied, List.mem_filter, Bool.and_eq_true]
  tauto

/-- A host of the scope that the filters admit is listed. -/
theorem listed_of_inScope {h : HostRow} (scope : inScope db auth h = true)
    (admitted : applied pg db q h = true) : listed pg db auth q h = true := by
  unfold listed
  unfold inScope Database.operatorCanAccessHost at scope
  cases role : auth.role.isAdmin with
  | true => simpa using admitted
  | false => simpa [role, admitted] using scope

theorem Faultless.listed_eq (faultless : Faultless pg db auth q) {h : HostRow} (mem : h ∈ db.hosts) :
    listed pg db auth q h = (inScope db auth h && applied pg db q h) := by
  have grouped := faultless.grouped
  unfold listed inScope Database.operatorCanAccessHost
  cases role : auth.role.isAdmin with
  | true => simp
  | false =>
    cases member : db.inGroup auth.userId h.id with
    | true => simp [grouped role h mem member]
    | false => simp

theorem Faultless.wanted_eq (faultless : Faultless pg db auth q) :
    wanted pg db auth q = counted pg db auth q := by
  refine List.filter_congr fun h mem => ?_
  have status : statusHolds q h = true := by
    have noStatus := faultless.noStatus
    unfold statusHolds
    cases eq : q.healthStatus with
    | none => rfl
    | some s => simp_all
  rw [status, Bool.and_true, Bool.and_assoc (inScope db auth h), ← applied]
  cases eq : inScope db auth h && applied pg db q h with
  | false => simp
  | true =>
    obtain ⟨scope, admitted⟩ := Bool.and_eq_true_iff.mp eq
    obtain ⟨group, family⟩ := faultless.ignored h mem scope admitted
    simp [group, family]

theorem Faultless.listedItems_eq (faultless : Faultless pg db auth q) :
    listedItems pg db auth q = (wanted pg db auth q).map db.item := by
  rw [faultless.wanted_eq, listedItems, counted]
  congr 1
  exact List.filter_congr fun h mem => faultless.listed_eq mem

theorem exact_of_faultless (positive : 0 < pageSize q) (faultless : Faultless pg db auth q) :
    Exact pg db auth q := by
  intro count enough answers gives
  have sound : Sound auth q := ⟨faultless.noStatus, faultless.sortable⟩
  have items := faultless.listedItems_eq
  have each (k : Nat) : ∃ sorted response, ((orderBy q).order pg).Sorts ((wanted pg db auth q).map db.item) sorted ∧
      (k < count → answers k = .ok response ∧
        response.hosts.map (·.id) = (page (pageSize q) k sorted).map (·.id) ∧
        response.total = (wanted pg db auth q).length) := by
    by_cases inside : k < count
    · obtain ⟨sorted, response, sorts, ok, ids, total⟩ := gives_inv positive sound (gives k inside)
      rw [items] at sorts
      rw [← faultless.wanted_eq] at total
      exact ⟨sorted, response, sorts, fun _ => ⟨ok, ids, total⟩⟩
    · exact ⟨_, ⟨[], 0, 0, 0⟩, SortOrder.sorts_mergeSort _ _, fun below => absurd below inside⟩
  choose chosen responses sorts facts using each
  refine ⟨responses, fun k inside => ⟨(facts k inside).1, (facts k inside).2.2⟩, ?_⟩
  have ids : ((List.range count).flatMap fun k => (responses k).hosts.map (·.id)) =
      (pages (pageSize q) chosen count).map (·.id) := by
    rw [pages, List.map_flatMap]
    exact List.flatMap_congr fun k mem => (facts k (List.mem_range.mp mem)).2.1
  have perm := Sql.pages_perm (items_nodup _) faultless.separates sorts count
  have whole : (chosen 0).take (pageSize q * count) = chosen 0 :=
    List.take_of_length_le (by simpa [(sorts 0).perm.length_eq] using enough)
  rw [whole] at perm
  rw [ids]
  have named := ((perm.trans (sorts 0).perm).map (·.id))
  rwa [List.map_map] at named

/-- Whatever orders the database chooses, enough pages have the hosts asked for. -/
theorem Exact.pages_perm (law : Exact pg db auth q) (positive : 0 < pageSize q) (sound : Sound auth q)
    {chosen : Nat → List HostSummary}
    (sorts : ∀ k, ((orderBy q).order pg).Sorts (listedItems pg db auth q) (chosen k)) {count : Nat}
    (enough : (wanted pg db auth q).length ≤ pageSize q * count) :
    ((pages (pageSize q) chosen count).map (·.id)).Perm ((wanted pg db auth q).map (·.id)) := by
  choose responses gives ids using fun k => gives_of_sorts positive sound (sorts k) k
  obtain ⟨responses', ok, perm⟩ := law count enough (fun k => .ok (responses k)) fun k _ => gives k
  have same : ((List.range count).flatMap fun k => (responses' k).hosts.map (·.id)) =
      (pages (pageSize q) chosen count).map (·.id) := by
    rw [pages, List.map_flatMap]
    refine List.flatMap_congr fun k mem => ?_
    have eq : responses k = responses' k := Except.ok.inj (ok k (List.mem_range.mp mem)).1
    rw [← eq, ids k]
  rwa [same] at perm

theorem Exact.sound (law : Exact pg db auth q) (positive : 0 < pageSize q) : Sound auth q := by
  by_contra unsound
  have enough : (wanted pg db auth q).length ≤ pageSize q * ((wanted pg db auth q).length + 1) :=
    Nat.le_trans (Nat.le_succ _) (Nat.le_mul_of_pos_left _ positive)
  obtain ⟨responses, ok, -⟩ := law _ enough (fun _ => .error .database) fun k _ => gives_error unsound k
  cases (ok 0 (Nat.succ_pos _)).1

/-- Where the pages are exact, nothing else is listed. -/
theorem Exact.wanted_of_listed (law : Exact pg db auth q) (positive : 0 < pageSize q) {h : HostRow}
    (mem : h ∈ db.hosts) (isListed : listed pg db auth q h = true) : h ∈ wanted pg db auth q := by
  have sorts := SortOrder.sorts_mergeSort ((orderBy q).order pg) (listedItems pg db auth q)
  have count : ∃ count, (wanted pg db auth q).length ≤ pageSize q * count ∧
      (listedItems pg db auth q).length ≤ pageSize q * count :=
    ⟨max (wanted pg db auth q).length (listedItems pg db auth q).length,
      Nat.le_trans (Nat.le_max_left ..) (Nat.le_mul_of_pos_left _ positive),
      Nat.le_trans (Nat.le_max_right ..) (Nat.le_mul_of_pos_left _ positive)⟩
  obtain ⟨count, enough, all⟩ := count
  have perm := law.pages_perm positive (law.sound positive) (fun _ => sorts) enough
  rw [Sql.pages_same, List.take_of_length_le (by simpa [sorts.perm.length_eq] using all)] at perm
  have item : db.item h ∈ listedItems pg db auth q :=
    List.mem_map_of_mem (List.mem_filter.mpr ⟨mem, isListed⟩)
  have id : h.id ∈ (wanted pg db auth q).map (·.id) :=
    perm.mem_iff.mp (List.mem_map_of_mem (f := (·.id)) (sorts.perm.mem_iff.mpr item))
  obtain ⟨h', there, same⟩ := List.mem_map.mp id
  obtain rfl := List.inj_on_of_nodup_map db.hostKeys (mem_wanted.mp there).1 mem same
  exact there

theorem Exact.listedItems_eq (law : Exact pg db auth q) (positive : 0 < pageSize q) :
    listedItems pg db auth q = (wanted pg db auth q).map db.item := by
  have same : db.hosts.filter (listed pg db auth q) = wanted pg db auth q := by
    refine List.filter_congr fun h mem => ?_
    rw [Bool.eq_iff_iff]
    refine ⟨fun isListed => (List.mem_filter.mp (law.wanted_of_listed positive mem isListed)).2, fun asked => ?_⟩
    have facts := mem_wanted.mp (List.mem_filter.mpr ⟨mem, asked⟩)
    exact listed_of_inScope facts.2.1 facts.2.2.1
  rw [listedItems, same]

theorem faultless_of_exact (positive : 0 < pageSize q) (law : Exact pg db auth q) :
    Faultless pg db auth q where
  noStatus := (law.sound positive).1
  sortable := (law.sound positive).2
  grouped role h mem member := by
    have isListed : listed pg db auth q h = true := by simp [listed, role, member]
    exact (mem_wanted.mp (law.wanted_of_listed positive mem isListed)).2.2.1
  ignored h mem scope admitted :=
    (mem_wanted.mp (law.wanted_of_listed positive mem (listed_of_inScope scope admitted))).2.2.2.2
  separates := by
    refine Sql.separates_of_nodup positive fun chosen sorts count => ?_
    have enough : (wanted pg db auth q).length ≤ pageSize q * (count + (wanted pg db auth q).length) :=
      Nat.le_trans (Nat.le_add_left ..) (Nat.le_mul_of_pos_left _ positive)
    rw [← law.listedItems_eq positive] at sorts
    have perm := law.pages_perm positive (law.sound positive) sorts enough
    have keys : ((wanted pg db auth q).map (·.id)).Nodup :=
      db.hostKeys.sublist (List.filter_sublist.map _)
    exact (List.Nodup.of_map _ (perm.nodup_iff.mpr keys)).sublist (Sql.pages_prefix ..).sublist

end exactness

/-- The pages of the list are exact if and only if no fault shows. -/
theorem list_exact_iff (positive : 0 < pageSize q) : Exact pg db auth q ↔ Faultless pg db auth q :=
  ⟨faultless_of_exact positive, exact_of_faultless positive⟩

/-- Patterns by their text alone, and texts by their length. -/
def Small.postgres : Postgres where
  ilike text pattern := "%" ++ text ++ "%" == pattern
  collation := (orderOf Nat).by String.length

def Small.web : HostRow where
  id := 1
  fqdn := "web"
  ipAddress := "10.0.0.1"
  displayName := "web"
  osFamily := some "debian"
  osName := some "Ubuntu 24.04"
  healthStatus := .healthy
  agentVersion := none
  registeredAt := 0
  crlStatus := none
  pendingReboot := false
  rebootPaused := false
  packageDbClean := true

/-- The operator is in the group of the host. -/
def Small.grouped : Database where
  hosts := [Small.web]
  hostGroups := [⟨1, 7⟩]
  userGroups := [⟨2, 7⟩]

def Small.operator : AuthUser := { userId := 2, username := "ann", role := .operator }

theorem list_exact_iff_web :
    Exact Small.postgres Small.grouped Small.operator { search := some "web" } ↔
      Faultless Small.postgres Small.grouped Small.operator { search := some "web" } :=
  list_exact_iff _ _ _ _ (by decide)

/-- A search for `db` brings up the host `web`, which is in a group of the operator. -/
theorem grouped_unfiltered : ¬ ∀ pg db auth q, 0 < pageSize q → Exact pg db auth q := by
  intro all
  have positive : 0 < pageSize { search := some "db" } := by decide
  have law := all Small.postgres Small.grouped Small.operator { search := some "db" } positive
  have wanted := law.wanted_of_listed positive (h := Small.web) (by decide) (by decide +kernel)
  revert wanted
  decide +kernel

end PatchManager.Hosts
