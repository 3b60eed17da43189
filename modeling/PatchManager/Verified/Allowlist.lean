import PatchManager.Web.Settings

/-! # The allowlist is the one accepted

A list that is accepted is stored with every entry, while only its networks are enforced: an
address without a length is dropped, and where nothing is left everything is allowed.  A restart
enforces the list of the configuration file.

Main results:

* `harmless_iff`: the accepted lists that are enforced as they are.
* `served_cases`: what one request does to the stored and to the enforced list.
* `enforced_as_accepted`: where accepted lists are harmless, requests that store a list succeed and
  the file names what was accepted, the accepted list is enforced in every state reached.
* `bare_address_opens`: one bare address is accepted, and everything is allowed.
-/

namespace PatchManager.Settings

open PatchManager.Conc

variable {nets : IpNetCrate} {w w' : World nets} {entries : List (List Char)}

/-! ## What a list says, and what is enforced -/

/-- A network stands for its addresses, an address for itself, and anything else for nothing. -/
def entryAllows (nets : IpNetCrate) (entry : List Char) (ip : IpAddr) : Bool :=
  match nets.fromStr entry with
  | some net => nets.contains net ip
  | none => IpAddr.parse entry == some ip

/-- The empty list stands for every address. -/
def listAllows (nets : IpNetCrate) (entries : List (List Char)) (ip : IpAddr) : Bool :=
  entries.isEmpty || entries.any (entryAllows nets · ip)

/-- Networks that, enforced, allow what a list says. -/
structure Covers (nets : IpNetCrate) (list : List nets.Net) (entries : List (List Char)) : Prop where
  same : ∀ ip, (list.isEmpty || list.any (nets.contains · ip)) = listAllows nets entries ip
  nonempty : entries ≠ [] → list ≠ []

/-- A network is left of every list that is not empty, and the addresses without a length are in
    networks of the list. -/
structure Harmless (nets : IpNetCrate) (entries : List (List Char)) : Prop where
  kept : entries ≠ [] → parseNets nets entries ≠ []
  within : ∀ entry ∈ entries, nets.fromStr entry = none → ∀ ip, IpAddr.parse entry = some ip →
    (parseNets nets entries).any (nets.contains · ip) = true

/-- The networks of a list are part of what it says. -/
theorem any_of_parseNets {ip : IpAddr} (allowed : (parseNets nets entries).any (nets.contains · ip) = true) :
    entries.any (entryAllows nets · ip) = true := by
  obtain ⟨net, mem, contains⟩ := List.any_eq_true.mp allowed
  obtain ⟨entry, mem, parsed⟩ := List.mem_filterMap.mp mem
  exact List.any_eq_true.mpr ⟨entry, mem, by simpa [entryAllows, parsed] using contains⟩

/-- Exactly the harmless lists are enforced as they are. -/
theorem harmless_iff : Harmless nets entries ↔ Covers nets (parseNets nets entries) entries := by
  constructor
  · intro harmless
    refine ⟨fun ip => ?_, harmless.kept⟩
    by_cases none_ : entries = []
    · simp [none_, parseNets, listAllows]
    · simp only [listAllows, List.isEmpty_eq_false_iff.mpr none_,
        List.isEmpty_eq_false_iff.mpr (harmless.kept none_), Bool.false_or]
      rw [Bool.eq_iff_iff]
      refine ⟨any_of_parseNets, fun listed => ?_⟩
      obtain ⟨entry, mem, allows⟩ := List.any_eq_true.mp listed
      unfold entryAllows at allows
      cases parsed : nets.fromStr entry with
      | some net =>
        rw [parsed] at allows
        exact List.any_eq_true.mpr ⟨net, List.mem_filterMap.mpr ⟨entry, mem, parsed⟩, allows⟩
      | none =>
        rw [parsed] at allows
        exact harmless.within entry mem parsed ip (beq_iff_eq.mp allows)
  · intro covers
    refine ⟨covers.nonempty, fun entry mem dropped ip parsed => ?_⟩
    have nonempty : entries ≠ [] := List.ne_nil_of_mem mem
    have listed : listAllows nets entries ip = true := by
      rw [listAllows, Bool.or_eq_true]
      exact .inr (List.any_eq_true.mpr ⟨entry, mem, by simp [entryAllows, dropped, parsed]⟩)
    have enforced := covers.same ip
    rwa [listed, List.isEmpty_eq_false_iff.mpr (covers.nonempty nonempty), Bool.false_or] at enforced

/-! ## What a request does -/

/-- The operations that have nothing to do with the allowlist. -/
def Op.quiet : Op → Bool
  | .updateConfigKey key _ => key != "ip_whitelist"
  | .updateIpWhitelist _ => false
  | _ => true

def Op.failed : (o : Op) → o.Resp → Prop
  | .encrypt _, r => r.isOk = false
  | .loadKey, r | .updateOidcConfig _ _, r | .updateConfigKey _ _, r | .deleteConfigKey _, r
  | .insertConfigKey _ _, r | .loadSystemConfig, r | .fetchOidcConfig, r => r.isOk = false
  | .logEvent _ _, _ | .updateIpWhitelist _, _ => False

/-- The exchange that stores a list. -/
def stored (entries : List (List Char)) : Exchange Op Op.Resp :=
  ⟨.updateConfigKey "ip_whitelist" (.entries entries), .ok ()⟩

theorem execute_quiet {o : Op} {a : Answer} {r : o.Resp} (quiet : o.quiet = true)
    (executed : execute w o a = some (r, w')) : w' = w := by
  unfold execute at executed
  split at executed <;> grind [Op.quiet]

/-- A program that has nothing to do with the allowlist, and returns an error only where an
    operation has failed. -/
structure Quiet {ε α : Type} (p : Prog (Except ε α)) : Prop where
  within : p.Within (fun o => o.quiet = true) (fun _ => False) (fun _ => False)
  failsOnly : p.FailsOnly Op.failed

namespace Quiet

variable {ε α β : Type}

theorem ret {value : α} : Quiet (.ret (.ok value) : Prog (Except ε α)) := ⟨.ret _, rfl⟩

theorem attempt {p : Prog (Except ε α)} {rest : α → Prog (Except ε β)} (first : Quiet p)
    (second : ∀ value, Quiet (rest value)) : Quiet (p.attempt rest) :=
  ⟨first.within.attempt fun value => (second value).within,
    first.failsOnly.bind fun value => (second value).failsOnly⟩

theorem steps {l : List (Prog (Except ε Unit))} (each : ∀ p ∈ l, Quiet p) : Quiet (Conc.Prog.steps l) :=
  ⟨.steps fun p mem => (each p mem).within, .steps fun p mem => (each p mem).failsOnly⟩

theorem ifSome {v : Option α} {p : α → Prog (Except ApiError Unit)} (each : ∀ a, Quiet (p a)) :
    Quiet (Settings.ifSome v p) := by
  cases v with
  | none => exact ret
  | some a => exact each a

theorem orInternal {message : String → String} {p : Prog (Except String α)} (quiet : Quiet p) :
    Quiet (Settings.orInternal message p) :=
  ⟨quiet.within.bind fun _ => .ret _, quiet.failsOnly.bind fun _ => rfl⟩

theorem logEvent (action : AuditAction) (target : String) : Quiet (Settings.logEvent action target) :=
  ⟨⟨rfl, fun _ => .ret _⟩, fun _ _ => rfl⟩

theorem updateConfigKey {key : String} {value : ConfigValue} (other : (key != "ip_whitelist") = true) :
    Quiet (Settings.updateConfigKey key value) :=
  orInternal (p := perform (.updateConfigKey key value))
    ⟨⟨other, fun _ => .ret _⟩, fun _ => Bool.eq_true_of_not_eq_false⟩

theorem encryptSecret (plaintext : String) : Quiet (Settings.encryptSecret plaintext) :=
  (orInternal (p := perform .loadKey) ⟨⟨rfl, fun _ => .ret _⟩, fun _ => Bool.eq_true_of_not_eq_false⟩).attempt fun _ =>
    orInternal (p := perform (.encrypt plaintext))
      ⟨⟨rfl, fun _ => .ret _⟩, fun _ => Bool.eq_true_of_not_eq_false⟩

theorem updateOidc (oidc : OidcConfigUpdate) : Quiet (Settings.updateOidc oidc) := by
  refine attempt ?_ fun secret => steps ?_
  · cases oidc.clientSecret.filter fun s => s ≠ masked && !s.isEmpty with
    | none => exact ret
    | some plaintext => exact (encryptSecret plaintext).attempt fun _ => ret
  · simp only [List.mem_cons, List.not_mem_nil, or_false, forall_eq_or_imp, forall_eq]
    exact ⟨orInternal (p := perform (.updateOidcConfig oidc secret))
      ⟨⟨rfl, fun _ => .ret _⟩, fun _ => Bool.eq_true_of_not_eq_false⟩, logEvent _ _⟩

theorem updateSmtpPassword (password : String) : Quiet (Settings.updateSmtpPassword password) := by
  unfold Settings.updateSmtpPassword
  split
  · exact ret
  · refine (encryptSecret password).attempt fun secret => steps ?_
    simp only [List.mem_cons, List.not_mem_nil, or_false, forall_eq_or_imp, forall_eq]
    exact ⟨orInternal (p := perform (.deleteConfigKey _))
        ⟨⟨rfl, fun _ => .ret _⟩, fun _ => Bool.eq_true_of_not_eq_false⟩,
      orInternal (p := perform (.insertConfigKey _ _))
        ⟨⟨rfl, fun _ => .ret _⟩, fun _ => Bool.eq_true_of_not_eq_false⟩,
      orInternal (p := perform (.insertConfigKey _ _))
        ⟨⟨rfl, fun _ => .ret _⟩, fun _ => Bool.eq_true_of_not_eq_false⟩⟩

theorem updateSmtp (smtp : SmtpConfigUpdate) : Quiet (Settings.updateSmtp smtp) := by
  refine steps ?_
  simp only [List.mem_cons, List.not_mem_nil, or_false, forall_eq_or_imp, forall_eq]
  exact ⟨ifSome fun _ => updateConfigKey (by decide), ifSome fun _ => updateConfigKey (by decide),
    ifSome fun _ => updateConfigKey (by decide), ifSome fun _ => updateConfigKey (by decide),
    ifSome updateSmtpPassword, ifSome fun _ => updateConfigKey (by decide),
    ifSome fun _ => updateConfigKey (by decide), logEvent _ _⟩

theorem updatePolling (polling : PollingConfigUpdate) : Quiet (Settings.updatePolling polling) := by
  refine steps ?_
  simp only [List.mem_cons, List.not_mem_nil, or_false, forall_eq_or_imp, forall_eq]
  exact ⟨ifSome fun _ => updateConfigKey (by decide), ifSome fun _ => updateConfigKey (by decide),
    logEvent _ _⟩

theorem updateWebTlsStrategy (v : String) : Quiet (Settings.updateWebTlsStrategy v) := by
  refine steps ?_
  simp only [List.mem_cons, List.not_mem_nil, or_false, forall_eq_or_imp, forall_eq]
  exact ⟨updateConfigKey (by decide), logEvent _ _⟩

theorem updateNotification (notif : NotificationConfigUpdate) : Quiet (Settings.updateNotification notif) := by
  refine steps ?_
  simp only [List.mem_cons, List.not_mem_nil, or_false, forall_eq_or_imp, forall_eq]
  exact ⟨ifSome fun _ => updateConfigKey (by decide), ifSome fun _ => updateConfigKey (by decide),
    ifSome fun _ => updateConfigKey (by decide), logEvent _ _⟩

end Quiet

variable {l : List (Exchange Op Op.Resp)} {result : Option (Except ApiError Unit)}

theorem Quiet.serves {α : Type} {p : Prog (Except ApiError α)} {result : Option (Except ApiError α)}
    (quiet : Quiet p) (serves : Serves (settings nets) w p l result w') :
    w' = w ∧ ∀ entries, stored entries ∉ l := by
  constructor
  · exact serves.within (I := fun v => v = w) quiet.within
      (fun quiet executed eq => (execute_quiet quiet executed).trans eq) rfl
  · intro entries mem
    have quiet := serves.mem_within quiet.within _ mem
    cases quiet

/-- What a request that names `list` does to the allowlist: nothing, and then it is answered with
    success only where it names none, or the list is stored, and enforced where it is answered so. -/
inductive Outcome (w : World nets) (list : Option (List (List Char))) (l : List (Exchange Op Op.Resp))
    (result : Option (Except ApiError Unit)) (w' : World nets) : Prop
  | untouched (none_ : ∀ entries, stored entries ∉ l) (same : w' = w)
      (unnamed : result = some (.ok ()) → list = none)
  | stores {entries : List (List Char)} (named : list = some entries) (mem : stored entries ∈ l)
      (kept : w'.ipWhitelist = entries)
      (enforced : result = some (.ok ()) → w'.authConfig = w.authConfig.updateIpWhitelist entries)

namespace Outcome

variable {list : Option (List (List Char))} {α : Type}

theorem of_store (serves : Serves (settings nets) w (storeIpWhitelist entries) l result w') :
    Outcome w (some entries) l result w' := by
  rcases serves.op_inv with ⟨rfl, rfl, rfl⟩ | ⟨a, r, w₁, l₁, executed, later, rfl⟩
  · exact .untouched (by simp) rfl (by simp)
  cases a with
  | encrypted secret => cases executed
  | failed reason =>
    cases executed
    obtain ⟨rfl, rfl, rfl | rfl⟩ := later.ret_inv
    · exact .untouched (by simp [stored]) rfl (by simp)
    · exact .untouched (by simp [stored]) rfl (by simp)
  | ok =>
    cases executed
    rcases later.op_inv with ⟨rfl, rfl, rfl⟩ | ⟨a, r, w₂, l₂, executed, later, rfl⟩
    · exact .stores rfl (by simp [stored]) rfl (by simp)
    · cases a with
      | encrypted secret => cases executed
      | failed reason => cases executed
      | ok =>
        cases executed
        -- what is left writes the audit entry
        obtain ⟨rfl, -⟩ := ((Quiet.logEvent .ipWhitelistUpdated "ip_whitelist").attempt fun _ => .ret).serves later
        exact .stores rfl (by simp [stored]) rfl fun _ => rfl

theorem of_ifSome (serves : Serves (settings nets) w (ifSome list storeIpWhitelist) l result w') :
    Outcome w list l result w' := by
  cases list with
  | none =>
    obtain ⟨rfl, rfl, -⟩ := serves.ret_inv
    exact .untouched (by simp) rfl fun _ => rfl
  | some entries => exact of_store serves

theorem quiet_first {p : Prog (Except ApiError α)} {rest : α → Prog (Except ApiError Unit)} (quiet : Quiet p)
    (second : ∀ {l value}, Serves (settings nets) w (rest value) l result w' → Outcome w list l result w')
    (serves : Serves (settings nets) w (p.attempt rest) l result w') : Outcome w list l result w' := by
  rcases serves.attempt_inv with ⟨l₁, value, w₁, l₂, first, later, rfl⟩ | ⟨other, r, first⟩
  · obtain ⟨rfl, none_⟩ := quiet.serves first
    cases second later with
    | untouched none' same unnamed =>
      exact .untouched (fun entries => by simp [none_ entries, none' entries]) same unnamed
    | stores named mem kept enforced =>
      exact .stores named (List.mem_append_right _ mem) kept enforced
  · obtain ⟨rfl, none_⟩ := quiet.serves first
    exact .untouched none_ rfl fun eq => absurd eq (other ())

theorem quiet_last {p : Prog (Except ApiError Unit)} {rest : Unit → Prog (Except ApiError Unit)}
    (first : ∀ {l r w'}, Serves (settings nets) w p l r w' → Outcome w list l r w')
    (quiet : ∀ value, Quiet (rest value)) (serves : Serves (settings nets) w (p.attempt rest) l result w') :
    Outcome w list l result w' := by
  rcases serves.attempt_inv with ⟨l₁, value, w₁, l₂, done, later, rfl⟩ | ⟨other, r, done⟩
  · obtain ⟨rfl, none_⟩ := (quiet value).serves later
    cases first done with
    | untouched none' same unnamed =>
      exact .untouched (fun entries => by simp [none_ entries, none' entries]) same fun _ => unnamed rfl
    | stores named mem kept enforced =>
      exact .stores named (List.mem_append_left _ mem) kept fun _ => enforced rfl
  · cases first done with
    | untouched none_ same unnamed => exact .untouched none_ same fun eq => absurd eq (other ())
    | stores named mem kept enforced => exact .stores named mem kept fun eq => absurd eq (other ())

end Outcome

/-- The list a request names. -/
def Fn.ipWhitelist : Fn → Option (List (List Char))
  | .updateSettings _ req => req.ipWhitelist
  | .updateIpWhitelist _ entries => some entries

/-- What follows the allowlist in `update_settings`. -/
theorem quiet_rest (req : UpdateSettingsRequest) : Quiet (Conc.Prog.steps [
    ifSome req.webTlsStrategy updateWebTlsStrategy, ifSome req.notification updateNotification,
    orDatabase (perform .loadSystemConfig), orDatabase (perform .fetchOidcConfig)]) := by
  refine .steps ?_
  simp only [List.mem_cons, List.not_mem_nil, or_false, forall_eq_or_imp, forall_eq]
  exact ⟨.ifSome .updateWebTlsStrategy, .ifSome .updateNotification,
    .orInternal (p := perform .loadSystemConfig)
      ⟨⟨rfl, fun _ => .ret _⟩, fun _ => Bool.eq_true_of_not_eq_false⟩,
    .orInternal (p := perform .fetchOidcConfig)
      ⟨⟨rfl, fun _ => .ret _⟩, fun _ => Bool.eq_true_of_not_eq_false⟩⟩

theorem served_cases {f : Fn} (serves : Serves (settings nets) w (handle nets f) l result w') :
    Outcome w f.ipWhitelist l result w' := by
  have rejected : ∀ {e : ApiError} {list}, Serves (settings nets) w (.ret (.error e)) l result w' →
      Outcome w list l result w' := fun serves => by
    obtain ⟨rfl, rfl, rfl | rfl⟩ := serves.ret_inv
    · exact .untouched (by simp) rfl (by simp)
    · exact .untouched (by simp) rfl (by simp)
  cases f with
  | updateSettings auth req =>
    simp only [handle, updateSettings] at serves
    cases permitted : adminRequired auth with
    | error e =>
      rw [permitted] at serves
      exact rejected serves
    | ok u =>
      rw [permitted] at serves
      exact .quiet_first (.ifSome .updateOidc) (.quiet_first (.ifSome .updateSmtp)
        (.quiet_first (.ifSome .updatePolling) (.quiet_last .of_ifSome fun _ => quiet_rest req))) serves
  | updateIpWhitelist auth entries =>
    simp only [handle, updateIpWhitelist] at serves
    cases permitted : adminRequired auth with
    | error e =>
      rw [permitted] at serves
      exact rejected serves
    | ok u =>
      rw [permitted] at serves
      cases valid : entries.find? (isInvalid nets) with
      | some entry =>
        simp only [valid] at serves
        exact rejected serves
      | none =>
        simp only [valid] at serves
        exact .of_store serves

theorem storeIpWhitelist_failsOnly : (storeIpWhitelist entries).FailsOnly Op.failed := by
  refine .steps ?_
  simp only [List.mem_cons, List.not_mem_nil, or_false, forall_eq_or_imp, forall_eq]
  refine ⟨?_, fun _ _ => rfl, (Quiet.logEvent _ _).failsOnly⟩
  exact Prog.FailsOnly.bind (p := perform (.updateConfigKey _ _))
    (fun _ => Bool.eq_true_of_not_eq_false) fun _ => rfl

/-- A request that has stored its list, and in which nothing has failed, is answered with success. -/
theorem ok_of_stored {f : Fn} {r : Except ApiError Unit}
    (serves : Serves (settings nets) w (handle nets f) l (some r) w') (mem : stored entries ∈ l)
    (good : ∀ x ∈ l, ¬ x.1.failed x.2) : r = .ok () := by
  have isOk : r.isOk = true := by
    have rejected : ∀ {e : ApiError}, ¬ Serves (settings nets) w (.ret (.error e)) l (some r) w' :=
      fun serves => by
        obtain ⟨rfl, -⟩ := serves.ret_inv
        cases mem
    cases f with
    | updateSettings auth req =>
      simp only [handle, updateSettings] at serves
      cases permitted : adminRequired auth with
      | error e =>
        rw [permitted] at serves
        exact absurd serves rejected
      | ok u =>
        rw [permitted] at serves
        refine serves.isOk (.bind (Quiet.ifSome .updateOidc).failsOnly fun _ =>
          .bind (Quiet.ifSome .updateSmtp).failsOnly fun _ =>
          .bind (Quiet.ifSome .updatePolling).failsOnly fun _ =>
          .bind ?_ fun _ => (quiet_rest req).failsOnly) good
        cases req.ipWhitelist with
        | none => exact rfl
        | some entries => exact storeIpWhitelist_failsOnly
    | updateIpWhitelist auth entries =>
      simp only [handle, updateIpWhitelist] at serves
      cases permitted : adminRequired auth with
      | error e =>
        rw [permitted] at serves
        exact absurd serves rejected
      | ok u =>
        rw [permitted] at serves
        cases valid : entries.find? (isInvalid nets) with
        | some entry =>
          simp only [valid] at serves
          exact absurd serves rejected
        | none =>
          simp only [valid] at serves
          exact serves.isOk storeIpWhitelist_failsOnly good
  cases r with
  | ok u => rfl
  | error e => cases isOk

/-! ## Requests and restarts -/

inductive Event where
  | served (f : Fn) (l : List (Exchange Op Op.Resp)) (result : Option (Except ApiError Unit))
  /-- with the lists of the configuration file -/
  | restarted (verifyKeyPem : String) (ipWhitelist trustedProxies : List (List Char))

/-- What happens from a fresh installation on, where no list is stored. -/
inductive History (nets : IpNetCrate) : List Event → World nets → Prop
  | fresh (verifyKeyPem : String) (ipWhitelist trustedProxies : List (List Char)) :
    History nets [] (start nets verifyKeyPem ipWhitelist trustedProxies [])
  | served {events : List Event} {w w' : World nets} {f : Fn} {l : List (Exchange Op Op.Resp)}
      {result : Option (Except ApiError Unit)} (before : History nets events w)
      (serves : Serves (settings nets) w (handle nets f) l result w') :
    History nets (events ++ [.served f l result]) w'
  | restarted {events : List Event} {w : World nets} (verifyKeyPem : String)
      (ipWhitelist trustedProxies : List (List Char)) (before : History nets events w) :
    History nets (events ++ [.restarted verifyKeyPem ipWhitelist trustedProxies])
      (start nets verifyKeyPem ipWhitelist trustedProxies w.ipWhitelist)

/-- The last list accepted, after one more event. -/
def Event.accepted (before : Option (List (List Char))) : Event → Option (List (List Char))
  | .served f _ (some (.ok ())) => f.ipWhitelist.or before
  | _ => before

/-- The list of the last request that was answered with success. -/
def accepted (events : List Event) : Option (List (List Char)) := events.foldl Event.accepted none

@[simp] theorem accepted_snoc (events : List Event) (e : Event) :
    accepted (events ++ [e]) = e.accepted (accepted events) := by simp [accepted]

/-- The list enforced is the one accepted, and not empty where the one stored is not. -/
structure AsAccepted (w : World nets) (accepted : Option (List (List Char))) : Prop where
  same : ∀ entries, accepted = some entries →
    ∀ ip, w.authConfig.isIpAllowed ip = listAllows nets entries ip
  notOpen : w.ipWhitelist ≠ [] → w.authConfig.ipWhitelist ≠ []

/-- A request that stores its list is not cut short, nothing fails in it, and the list is harmless;
    and the configuration file, where the process starts, names what was accepted. -/
def Event.Good (nets : IpNetCrate) (accepted : Option (List (List Char))) : Event → Prop
  | .served _ l result => ∀ entries, stored entries ∈ l →
    result ≠ none ∧ (∀ x ∈ l, ¬ x.1.failed x.2) ∧ Harmless nets entries
  | .restarted _ ipWhitelist _ => ∀ entries, accepted = some entries →
    Covers nets (parseNets nets ipWhitelist) entries

/-- The stored list is the accepted one, and what is enforced covers it. -/
structure Settled (w : World nets) (accepted : Option (List (List Char))) : Prop where
  stored : w.ipWhitelist = accepted.getD []
  covers : ∀ entries, accepted = some entries → Covers nets w.authConfig.ipWhitelist entries

theorem Settled.asAccepted {list : Option (List (List Char))} (settled : Settled w list) :
    AsAccepted w list := by
  refine ⟨fun entries eq ip => (settled.covers entries eq).same ip, fun nonempty => ?_⟩
  cases list with
  | none => exact absurd settled.stored nonempty
  | some entries =>
    refine (settled.covers entries rfl).nonempty ?_
    rwa [settled.stored] at nonempty

/-- One request keeps it. -/
theorem Settled.served {f : Fn} {list : Option (List (List Char))} (settled : Settled w list)
    (serves : Serves (settings nets) w (handle nets f) l result w')
    (good : (Event.served f l result).Good nets list) :
    Settled w' ((Event.served f l result).accepted list) := by
  cases served_cases serves with
  | untouched none_ same unnamed =>
    have still : (Event.served f l result).accepted list = list := by
      rcases result with _ | _ | ⟨⟨⟩⟩
      · rfl
      · rfl
      · simp [Event.accepted, unnamed rfl]
    rw [still, same]
    exact settled
  | @stores entries named mem kept enforced =>
    obtain ⟨whole, nothing, harmless⟩ := good entries mem
    cases result with
    | none => exact absurd rfl whole
    | some r =>
      obtain rfl := ok_of_stored serves mem nothing
      have now : (Event.served f l (some (.ok ()))).accepted list = some entries := by
        simp [Event.accepted, named]
      rw [now]
      refine ⟨kept, fun other eq => ?_⟩
      cases eq
      rw [enforced rfl]
      exact harmless_iff.mp harmless

/-- A list accepted is enforced as it is, in every state reached by requests and restarts of which
    none is bad. -/
theorem enforced_as_accepted {events : List Event} (history : History nets events w)
    (good : ∀ before e after, events = before ++ e :: after → e.Good nets (accepted before)) :
    AsAccepted w (accepted events) := by
  suffices settled : Settled w (accepted events) from settled.asAccepted
  induction history with
  | fresh => exact ⟨rfl, fun entries eq => by cases eq⟩
  | @served events w w' f l result before serves ih =>
    rw [accepted_snoc]
    have settled := ih fun b e after eq => good b e (after ++ [.served f l result]) (by simp [eq])
    exact settled.served serves (good events _ [] rfl)
  | @restarted events w verifyKeyPem ipWhitelist trustedProxies before ih =>
    rw [accepted_snoc]
    have settled := ih fun b e after eq =>
      good b e (after ++ [.restarted verifyKeyPem ipWhitelist trustedProxies]) (by simp [eq])
    exact ⟨settled.stored, good events _ [] rfl⟩

/-! ## Two lists of an administrator -/

/-- What a request to change the list has exchanged where everything goes well. -/
def storing (entries : List (List Char)) : List (Exchange Op Op.Resp) :=
  [stored entries, ⟨.updateIpWhitelist entries, ()⟩, ⟨.logEvent .ipWhitelistUpdated "ip_whitelist", ()⟩]

theorem stores_valid {auth : AuthUser} (admin : auth.role = .admin)
    (valid : entries.find? (isInvalid nets) = none) :
    Serves (settings nets) w (handle nets (.updateIpWhitelist auth entries)) (storing entries)
      (some (.ok ())) ⟨w.authConfig.updateIpWhitelist entries, entries⟩ := by
  have program : handle nets (.updateIpWhitelist auth entries) = storeIpWhitelist entries := by
    simp [handle, updateIpWhitelist, adminRequired, admin, valid]
  rw [program]
  exact .op (a := Answer.ok) rfl (.op (a := Answer.ok) rfl (.op (a := Answer.ok) rfl .ret))

def Small.administrator : AuthUser := { userId := 1, username := "ann", role := .admin }

def Small.network : List (List Char) := ["192.168.1.0/24".toList]

def Small.bareAddress : List (List Char) := ["192.168.1.50".toList]

/-- A network is accepted, and the process starts again with the same network in its file. -/
def Small.networkEvents : List Event :=
  [.served (.updateIpWhitelist Small.administrator Small.network) (storing Small.network) (some (.ok ())),
    .restarted "key" Small.network []]

theorem enforced_as_accepted_network :
    AsAccepted (start Small.ipNets "key" Small.network [] Small.network) (accepted Small.networkEvents) := by
  have history : History Small.ipNets Small.networkEvents
      (start Small.ipNets "key" Small.network [] Small.network) :=
    .restarted "key" Small.network [] (.served (.fresh "key" [] []) (stores_valid rfl (by decide +kernel)))
  have parsed : ∀ entry ∈ Small.network, (Small.ipNets.fromStr entry).isSome = true := by decide +kernel
  have harmless : Harmless Small.ipNets Small.network := by
    refine ⟨fun _ => ?_, fun entry mem dropped => ?_⟩
    · exact List.isEmpty_eq_false_iff.mp (by decide +kernel)
    · simpa [dropped] using parsed entry mem
  refine enforced_as_accepted history fun before e after eq => ?_
  rcases before with _ | ⟨first, _ | ⟨second, rest⟩⟩
  · cases eq
    intro entries mem
    have named : entries = Small.network := by simpa [storing, stored] using mem
    refine ⟨by simp, ?_, named ▸ harmless⟩
    simp [storing, stored, Op.failed, Except.isOk, Except.toBool]
  · cases eq
    intro entries eq
    cases eq
    exact harmless_iff.mp harmless
  · simp [Small.networkEvents] at eq

/-- One host is accepted; its entry is no network, and every address is allowed. -/
theorem bare_address_opens : ¬ ∀ (nets : IpNetCrate) (events : List Event) (w : World nets),
    History nets events w → AsAccepted w (accepted events) := by
  intro all
  have history : History Small.ipNets [.served (.updateIpWhitelist Small.administrator Small.bareAddress)
      (storing Small.bareAddress) (some (.ok ()))] _ :=
    .served (.fresh "key" [] []) (stores_valid rfl (by decide +kernel))
  have closed := (all _ _ _ history).notOpen (by simp [Small.bareAddress])
  refine closed (List.isEmpty_iff.mp ?_)
  decide +kernel

end PatchManager.Settings
