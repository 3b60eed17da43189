import PatchManager.Conc.Exchange
import PatchManager.Conc.Schedule
import Mathlib.Logic.Function.Basic

/-! # Key files

`load_or_create_key` of `crypto.rs`, the cached key of `secret_key.rs`, and `ensure_rsa_keypair` of
`rsa_signing.rs`.  A statement of the file system is atomic; what `fs::write` does is two of them, and a
process can end between any two.  Nothing else writes these files.
-/

namespace PatchManager.KeyFiles

open PatchManager.Conc

/-- A `[u8; 32]`. -/
abbrev Key := { bytes : List UInt8 // bytes.length = 32 }

inductive CryptoError where
  | io (e : String)
  | invalidKeyLength (n : Nat)
deriving DecidableEq

inductive RsaError where
  | keyError (e : String)
  | ioError (e : String)
deriving DecidableEq

structure RsaPrivateKey where
  n : Nat
  e : Nat
  d : Nat
  primes : List Nat
deriving DecidableEq

structure RsaKeyInfo where
  publicKeyPath : String
  privateKeyPath : String
  newlyGenerated : Bool
deriving DecidableEq

/-- The encodings of `rsa` and `pem`. -/
structure Rsa where
  toPkcs8Der : RsaPrivateKey → Except String (List UInt8)
  /-- of the public half -/
  toPublicKeyDer : RsaPrivateKey → Except String (List UInt8)
  pem : String → List UInt8 → List UInt8

/-! ## Operations -/

inductive Op where
  | exists_ (path : String)
  | read (path : String)
  | createParent (path : String)
  /-- opens a file for `fs::write`, empty -/
  | create (path : String)
  | write (path : String) (contents : List UInt8)
  | setPermissions (path : String) (mode : Nat)
  | rename (path dest : String)
  /-- `OsRng` -/
  | fillBytes
  | newRsaKey
  /-- the `OnceLock` of a process -/
  | getSecretKey (process : Nat)
  | setSecretKey (process : Nat) (key : Key)

@[reducible] def Op.Resp : Op → Type
  | .exists_ _ => Bool
  | .read _ => Except String (List UInt8)
  | .createParent _ | .create _ | .write _ _ | .setPermissions _ _ | .rename _ _ => Except String Unit
  | .fillBytes => Key
  | .newRsaKey => Except String RsaPrivateKey
  | .getSecretKey _ => Option Key
  | .setSecretKey _ _ => Unit

inductive Fn where
  | loadOrCreateKey (path : String)
  | secretKey (process : Nat)
  | ensureRsaKeypair (publicKeyPath privateKeyPath : String)
deriving DecidableEq

abbrev Proc := Prog Op Op.Resp Fn

def perform (o : Op) : Proc o.Resp := Prog.perform o

/-- `fs::write`. -/
def fsWrite (path : String) (contents : List UInt8) : Proc (Except String Unit) := do
  match ← perform (.create path) with
  | .error e => return .error e
  | .ok () => perform (.write path contents)

/-! ## Keys of the installation -/

def createKey (path : String) : Proc (Except CryptoError Key) := do
  let key ← perform .fillBytes
  match ← perform (.createParent path) with
  | .error e => return .error (.io e)
  | .ok () =>
    match ← fsWrite path key with
    | .error e => return .error (.io e)
    | .ok () =>
      match ← perform (.setPermissions path 0o600) with
      | .error e => return .error (.io e)
      | .ok () => return .ok key

def loadOrCreateKey (path : String) : Proc (Except CryptoError Key) := do
  if ← perform (.exists_ path) then
    match ← perform (.read path) with
    | .error e => return .error (.io e)
    | .ok bytes =>
      if len : bytes.length = 32 then return .ok ⟨bytes, len⟩
      else return .error (.invalidKeyLength bytes.length)
  else createKey path

def secretEncryptionKeyPath : String := "/etc/patch-manager/keys/secret-encryption.key"

/-- `get` of `secret_key.rs`: no answer is a panic. -/
def secretKey (process : Nat) : Proc (Option (Except CryptoError Key)) := do
  match ← perform (.getSecretKey process) with
  | some key => return some (.ok key)
  | none =>
    match ← loadOrCreateKey secretEncryptionKeyPath with
    | .error e => return some (.error e)
    | .ok key =>
      perform (.setSecretKey process key)
      return (← perform (.getSecretKey process)).map .ok

/-! ## The key pair of the repository -/

def tmpPath (path : String) : String := path ++ ".tmp"

/-- What `write_private_key` and `write_public_key` have in common. -/
def writeKey (mode : Nat) (path : String) (contents : List UInt8) : Proc (Except String Unit) := do
  match ← fsWrite (tmpPath path) contents with
  | .error e => return .error e
  | .ok () =>
    match ← perform (.setPermissions (tmpPath path) mode) with
    | .error e => return .error e
    | .ok () => perform (.rename (tmpPath path) path)

def writePrivateKey (path : String) (contents : List UInt8) : Proc (Except String Unit) := writeKey 0o600 path contents

def writePublicKey (path : String) (contents : List UInt8) : Proc (Except String Unit) := writeKey 0o644 path contents

def Rsa.privatePem (rsa : Rsa) (key : RsaPrivateKey) : Except String (List UInt8) :=
  (rsa.toPkcs8Der key).map (rsa.pem "PRIVATE KEY")

def Rsa.publicPem (rsa : Rsa) (key : RsaPrivateKey) : Except String (List UInt8) :=
  (rsa.toPublicKeyDer key).map (rsa.pem "PUBLIC KEY")

/-- The second half of `ensure_rsa_keypair`. -/
def generateRsaKeypair (rsa : Rsa) (publicKeyPath privateKeyPath : String) : Proc (Except RsaError RsaKeyInfo) := do
  match ← perform .newRsaKey with
  | .error e => return .error (.keyError e)
  | .ok key =>
    match rsa.privatePem key, rsa.publicPem key with
    | .error e, _ => return .error (.keyError e)
    | .ok _, .error e => return .error (.keyError e)
    | .ok privPem, .ok pubPem =>
      match ← writePrivateKey privateKeyPath privPem with
      | .error e => return .error (.ioError e)
      | .ok () =>
        match ← writePublicKey publicKeyPath pubPem with
        | .error e => return .error (.ioError e)
        | .ok () => return .ok ⟨publicKeyPath, privateKeyPath, true⟩

def ensureRsaKeypair (rsa : Rsa) (publicKeyPath privateKeyPath : String) : Proc (Except RsaError RsaKeyInfo) := do
  let pubExists ← perform (.exists_ publicKeyPath)
  let privExists ← perform (.exists_ privateKeyPath)
  if pubExists && privExists then return .ok ⟨publicKeyPath, privateKeyPath, false⟩
  else generateRsaKeypair rsa publicKeyPath privateKeyPath

def body (rsa : Rsa) : Fn → Proc Unit
  | .loadOrCreateKey path => do let _ ← loadOrCreateKey path
  | .secretKey process => do let _ ← secretKey process
  | .ensureRsaKeypair publicKeyPath privateKeyPath => do let _ ← ensureRsaKeypair rsa publicKeyPath privateKeyPath

/-! ## The file system -/

structure File where
  contents : List UInt8
  /-- the permission bits -/
  mode : Nat
deriving DecidableEq

structure World where
  files : String → Option File := fun _ => none
  /-- of a new file -/
  newMode : Nat := 0o644
  secretKeys : Nat → Option Key := fun _ => none

def World.put (w : World) (path : String) (file : Option File) : World :=
  { w with files := Function.update w.files path file }

/-- A file that is written from its start: what is longer stays behind. -/
def File.overwrite (f : File) (contents : List UInt8) : File :=
  { f with contents := contents ++ f.contents.drop contents.length }

inductive Answer where
  | ok
  | fails (e : String)
  /-- a write that ends early -/
  | part (n : Nat) (e : String)
  | key (k : Key)
  | rsaKey (r : Except String RsaPrivateKey)

def noEntry : String := "No such file or directory (os error 2)"

def execute (w : World) : (o : Op) → Answer → Option (o.Resp × World)
  | .exists_ path, .ok => some ((w.files path).isSome, w)
  -- what cannot be looked at does not exist
  | .exists_ _, .fails _ => some (false, w)
  | .read _, .fails e | .createParent _, .fails e | .create _, .fails e | .write _ _, .fails e
  | .setPermissions _ _, .fails e | .rename _ _, .fails e => some (.error e, w)
  | .read path, .ok =>
    match w.files path with
    | some f => some (.ok f.contents, w)
    | none => some (.error noEntry, w)
  | .createParent _, .ok => some (.ok (), w)
  | .create path, .ok => some (.ok (), w.put path (some ⟨[], ((w.files path).map (·.mode)).getD w.newMode⟩))
  | .write path contents, .ok => some (.ok (), w.put path ((w.files path).map (·.overwrite contents)))
  | .write path contents, .part n e =>
    if n < contents.length then some (.error e, w.put path ((w.files path).map (·.overwrite (contents.take n))))
    else none
  | .setPermissions path mode, .ok =>
    match w.files path with
    | some f => some (.ok (), w.put path (some { f with mode }))
    | none => some (.error noEntry, w)
  | .rename path dest, .ok =>
    match w.files path with
    | some f => some (.ok (), (w.put path none).put dest (some f))
    | none => some (.error noEntry, w)
  | .fillBytes, .key k => some (k, w)
  | .newRsaKey, .rsaKey r => some (r, w)
  | .getSecretKey process, _ => some (w.secretKeys process, w)
  | .setSecretKey process key, _ =>
    some ((), { w with secretKeys := Function.update w.secretKeys process ((w.secretKeys process).or (some key)) })
  | _, _ => none

/-- The processes that load keys; each can end at any point. -/
def keys (rsa : Rsa) : Service World Op Op.Resp Fn where
  body := body rsa
  Answer := Answer
  Change := Empty
  execute := execute
  change _ := nofun
  isEntry
    | .ensureRsaKeypair _ _ => false
    | _ => true
  restart w := w
  perishes _ := false

def isOver (t : Task Op Op.Resp Fn) : Bool :=
  match t.prog with
  | .ret _ => true
  | _ => false

def canStart (publicKeyPath privateKeyPath : String) (s : Sys World Op Op.Resp Fn) (f : Fn) : Bool :=
  f = .ensureRsaKeypair publicKeyPath privateKeyPath && s.tasks.all isOver

/-- The starts of the server: the next one comes when the last has ended, wherever that was. -/
def server (rsa : Rsa) (publicKeyPath privateKeyPath : String) : Machine World Op Op.Resp Fn where
  body := body rsa
  exec w o r w' := ∃ a, execute w o a = some (r, w')
  enter s f w := canStart publicKeyPath privateKeyPath s f = true ∧ w = s.world
  drift _ _ := False
  restart w := w
  perishes _ := true
  abandons _ := true

def serverPlayer (rsa : Rsa) (publicKeyPath privateKeyPath : String) : Player (server rsa publicKeyPath privateKeyPath) where
  Answer := Answer
  Change := Empty
  execute := execute
  call s f := if canStart publicKeyPath privateKeyPath s f then some s.world else none
  change _ := nofun
  execute_sound {_ _ a _ _} executed := ⟨a, executed⟩
  call_sound {s f _} called := by
    by_cases start : canStart publicKeyPath privateKeyPath s f = true
    · simp only [start, if_true, Option.some.injEq] at called
      exact ⟨start, called.symm⟩
    · simp [start] at called
  change_sound _ := nofun

end PatchManager.KeyFiles
