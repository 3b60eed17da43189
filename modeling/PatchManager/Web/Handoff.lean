import PatchManager.Web.Tickets

/-! # SSO hand-off codes

The end of `sso_callback` of `sso.rs`, which stores the tokens of a login under a fresh code,
and `sso_handoff_exchange_inner`, which gives them out for it.  What `sso_callback` does
before, up to the issue of the tokens, is an argument here.
-/

namespace PatchManager.Sso

open PatchManager.Conc

structure SsoHandoff where
  accessToken : String
  rawRefresh : String
  userJson : Json
  accessTtl : Nat
  /-- on the monotonic clock -/
  expiresAt : Time

def handoffTtlSecs : Int := 60

inductive Op where
  | instantNow
  | generateHandoffCode
  | insertHandoff (code : String) (handoff : SsoHandoff)
  | removeHandoff (code : String)

@[reducible] def Op.Resp : Op → Type
  | .instantNow => Time
  | .generateHandoffCode => String
  | .insertHandoff _ _ => Unit
  | .removeHandoff _ => Option SsoHandoff

/-- What `sso_callback` has when it comes to the hand-off. -/
structure Login where
  accessToken : String
  rawRefresh : String
  userJson : Json
  accessTtl : Nat

inductive Fn where
  | ssoCallback (login : Login)
  | ssoHandoffExchange (code : String)

abbrev Proc := Prog Op Op.Resp Fn

abbrev perform (o : Op) : Proc o.Resp := Prog.perform o

/-- The part of `sso_callback` from the generation of the code on; the redirect carries it. -/
def ssoCallback (login : Login) : Proc String := do
  let handoffCode ← perform .generateHandoffCode
  let now ← perform .instantNow
  perform (.insertHandoff handoffCode
    { accessToken := login.accessToken, rawRefresh := login.rawRefresh, userJson := login.userJson
      accessTtl := login.accessTtl, expiresAt := now + handoffTtlSecs * microsPerSecond })
  return handoffCode

def invalidHandoff : Nat × Json :=
  (400, .obj [("error", .obj [("code", .str "invalid_handoff"),
    ("message", .str "Handoff code is invalid or has expired")])])

/-- The answer that hands the tokens out. -/
def SsoHandoff.response (handoff : SsoHandoff) : Nat × Json :=
  (200, .obj [("access_token", .str handoff.accessToken), ("refresh_token", .str handoff.rawRefresh),
    ("token_type", .str "Bearer"), ("expires_in", .num handoff.accessTtl), ("user", handoff.userJson)])

def ssoHandoffExchangeInner (code : String) : Proc (Nat × Json) := do
  match ← perform (.removeHandoff code) with
  | none => return invalidHandoff
  | some handoff =>
    let now ← perform .instantNow
    if handoff.expiresAt ≤ now then return invalidHandoff
    else return handoff.response

/-! ## The service -/

structure World where
  handoffs : DashMap SsoHandoff := ∅
  /-- the codes given out so far, which are all different -/
  codes : List String := []
  now : Time

inductive Change where
  | tick (micros : Nat)
  /-- one entry as the purging task passes over it -/
  | purge (code : String)

/-- The answer is used by `generateHandoffCode` alone: the code. -/
def execute (w : World) : (o : Op) → String → Option (o.Resp × World)
  | .instantNow, _ => some (w.now, w)
  | .generateHandoffCode, code =>
    if code ∈ w.codes then none else some (code, { w with codes := code :: w.codes })
  | .insertHandoff code handoff, _ => some ((), { w with handoffs := w.handoffs.insert code handoff })
  | .removeHandoff code, _ =>
    some (w.handoffs.lookup code, { w with handoffs := w.handoffs.erase code })

def change (w : World) : Change → World
  | .tick micros => { w with now := w.now + micros }
  | .purge code =>
    if (w.handoffs.lookup code).any fun handoff => handoff.expiresAt ≤ w.now then
      { w with handoffs := w.handoffs.erase code }
    else w

def body : Fn → Proc Unit
  | .ssoCallback login => do
    let _ ← ssoCallback login
  | .ssoHandoffExchange code => do
    let _ ← ssoHandoffExchangeInner code

def handoffs : Service World Op Op.Resp Fn where
  body := body
  Answer := String
  Change := Change
  execute := execute
  change := change
  isEntry _ := true
  restart w := { w with handoffs := ∅ }
  perishes _ := true

end PatchManager.Sso
