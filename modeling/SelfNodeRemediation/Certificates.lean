import SelfNodeRemediation.Api
import SelfNodeRemediation.Lib.Versioned
import SelfNodeRemediation.Lib.Workers

/-!
# The certificates of the agents

The config controller makes a CA and one certificate that all agents share, and stores
them in an immutable Secret. Agents read the Secret when they need it, keep it for good,
and serve and dial with it. Any number of managers and agents do this at the same time.

Cryptography is symbolic: a key is a number, a certificate names the key it is for and
the key that signed it, and only a generated key is known.

* `createCerts`, `syncCerts`, `getCerts`, `prepareCredentials`: as programs.
* `handshake_iff`: two agents accept each other if their CA keys are equal and all
  certificates are valid.
* `certInv_reachable`: stored Secrets were issued as a whole, and the server and the
  client of an agent use what its storage keeps.
* `agents_authenticate`, `agents_share_ca`: the results for runs without and with
  deletions of the Secret.
-/

namespace SelfNodeRemediation.Certificates

open Interaction Versioned Versioned.Store

/-! ## 1. Certificates -/

/-- A private key, which also names its public key. -/
abbrev Key := Nat

/-- The fields of `createCertTemplate` that differ or are checked. -/
structure Template where
  notBefore : Time
  notAfter : Time
  isCA : Bool
  keyUsageCertSign : Bool
  ipAddresses : List String
deriving DecidableEq, Repr

structure Certificate extends Template where
  publicKey : Key
  signedBy : Key
deriving DecidableEq, Repr

/-- The server name of every agent, whatever its address is. -/
def fixedCertIP : String := "192.0.2.1"

/-- `AddDate(10, 0, 0)` in the time zone of the manager. It is not monotone: ten years
after the 29th of February 2028 is the 1st of March 2038, as is ten years after the 1st
of March 2028. -/
structure Calendar where
  addTenYears : Time → Time

/-- Year, month and day of a day counted from the 1st of January 1970. The years here
begin in March, so that a leap day is the last day of its year. -/
def dateOf (days : Int) : Int × Int × Int :=
  let z := days + 719468
  let doe := z % 146097
  let yoe := (doe - doe / 1460 + doe / 36524 - doe / 146096) / 365
  let doy := doe - (365 * yoe + yoe / 4 - yoe / 100)
  let month := (5 * doy + 2) / 153
  (yoe + z / 146097 * 400, month, doy - (153 * month + 2) / 5)

/-- The day of a date; a day that the month does not have counts on into the next. -/
def dayOf : Int × Int × Int → Int
  | (year, month, day) =>
    let yoe := year % 400
    year / 400 * 146097 + yoe * 365 + yoe / 4 - yoe / 100 + (153 * month + 2) / 5 + day - 719468

def nanosecondsPerDay : Int := 86400000000000

/-- The calendar of a manager whose time zone is UTC. -/
def utc : Calendar where
  addTenYears t :=
    let (year, month, day) := dateOf (t / nanosecondsPerDay)
    dayOf (year + 10, month, day) * nanosecondsPerDay + t % nanosecondsPerDay

/-- The clock is read for each of the two times, which are encoded in seconds. -/
def createCertTemplate (cal : Calendar) (isCa : Bool) (now now' : Time) : Template where
  notBefore := now.truncate
  notAfter := (cal.addTenYears now').truncate
  isCA := isCa
  keyUsageCertSign := isCa
  ipAddresses := if isCa then [] else [fixedCertIP]

def sign (cert : Template) (certPubKey caPrivKey : Key) : Certificate :=
  ⟨cert, certPubKey, caPrivKey⟩

def selfSign (cert : Template) (privKey : Key) : Certificate := sign cert privKey privKey

/-- The content of a PEM block. -/
inductive Pem
  | certificate (cert : Certificate)
  | privateKey (key : Key)
deriving DecidableEq, Repr

/-- What `CreateCerts` returns, and the data of the Secret. -/
structure Certs where
  caPem : Pem
  certPem : Pem
  keyPem : Pem
deriving DecidableEq, Repr

/-! ## 2. Credentials and handshakes -/

/-- A key pair and the pool of trusted CAs. -/
structure Credentials where
  cert : Certificate
  key : Key
  pool : List Certificate
deriving DecidableEq, Repr

/-- `tls.X509KeyPair` -/
def x509KeyPair : Pem → Pem → Except GoErr (Certificate × Key)
  | .certificate cert, .privateKey key =>
    if cert.publicKey = key then .ok (cert, key)
    else .error (.new "tls: private key does not match public key")
  | .certificate _, _ => .error (.new "tls: failed to find any PEM data in key input")
  | _, _ => .error (.new "tls: failed to find any PEM data in certificate input")

/-- `AppendCertsFromPEM` to an empty pool. -/
def certPool : Pem → Except GoErr (List Certificate)
  | .certificate ca => .ok [ca]
  | _ => .error (.new "credentials: failed to append ca cert")

/-- `prepareCredentials` of certificates that were read. -/
def credentialsFrom (certs : Certs) : Except GoErr Credentials := do
  let (cert, key) ← x509KeyPair certs.certPem certs.keyPem
  let pool ← certPool certs.caPem
  return ⟨cert, key, pool⟩

def Certificate.validAt (cert : Certificate) (t : Time) : Prop :=
  cert.notBefore ≤ t ∧ t ≤ cert.notAfter

/-- `CheckSignatureFrom` -/
def Certificate.signedFrom (cert ca : Certificate) : Prop :=
  ca.isCA = true ∧ ca.keyUsageCertSign = true ∧ cert.signedBy = ca.publicKey

/-- A certificate that is trusted at a time: itself in the pool, or signed by a valid CA
of it. -/
def Trusted (pool : List Certificate) (cert : Certificate) (t : Time) : Prop :=
  cert.validAt t ∧ (cert ∈ pool ∨ ∃ ca ∈ pool, cert.signedFrom ca ∧ ca.validAt t)

/-- A server requires a trusted client, and a client a trusted server with the fixed
address. -/
def Handshake (client server : Credentials) (t : Time) : Prop :=
  Trusted server.pool client.cert t ∧ Trusted client.pool server.cert t ∧
    fixedCertIP ∈ server.cert.ipAddresses

/-! ## 3. The programs -/

/-- The managers that sync certificates, and in each agent the server and the client. An
agent that was restarted is another agent. -/
inductive Party
  | manager (n : Nat)
  | server (agent : Nat)
  | client (agent : Nat)
deriving DecidableEq, Repr

inductive CreateAnswer
  | created
  | alreadyExists
  | failed (err : GoErr)
deriving DecidableEq, Repr

inductive Call
  | now
  | generateKey
  | lock (agent : Nat)
  | unlock (agent : Nat)
  | cachedSecret (agent : Nat)
  | getInformer
  | getSecret
  | cacheSecret (agent : Nat) (certs : Certs)
  | createSecret (certs : Certs)

abbrev Resp : Call → Type
  | .now => Time
  | .generateKey => Except GoErr Key
  | .lock _ | .unlock _ | .cacheSecret _ _ => Unit
  | .cachedSecret _ => Option Certs
  | .getInformer => Option GoErr
  | .getSecret => Except GoErr Certs
  | .createSecret _ => CreateAnswer

abbrev P (α : Type) := Prog Call Resp α

def ask (c : Call) : P (Resp c) := Prog.perform c

section Programs

variable (cal : Calendar)

def newTemplate (isCa : Bool) : P Template := do
  let now ← ask .now
  let now' ← ask .now
  return createCertTemplate cal isCa now now'

/-- The certificate of the agents, signed with the key of the CA. -/
def createCert (caCert : Template) (caKey : Key) : P (Except GoErr Certs) := do
  let cert ← newTemplate cal false
  match ← ask .generateKey with
  | .error err => return .error err
  | .ok key => return .ok ⟨.certificate (selfSign caCert caKey),
      .certificate (sign cert key caKey), .privateKey key⟩

def createCerts : P (Except GoErr Certs) := do
  let caCert ← newTemplate cal true
  match ← ask .generateKey with
  | .error err => return .error err
  | .ok caKey => createCert cal caCert caKey

/-- A read of the Secret once its informer is synced. -/
def fetchSecret : P (Except GoErr Certs) := do
  match ← ask .getInformer with
  | some err => return .error err
  | none => ask .getSecret

def storeCerts (certs : Certs) : P (Option GoErr) := do
  match ← ask (.createSecret certs) with
  | .created | .alreadyExists => return none
  | .failed err => return some err

def storeCreated : Except GoErr Certs → P (Option GoErr)
  | .error err => pure (some err)
  | .ok certs => storeCerts certs

/-- `syncCerts` has a storage of its own, with nothing cached. -/
def syncCerts : P (Option GoErr) := do
  match ← fetchSecret with
  | .ok _ => return none
  | .error err =>
    if err.isNotFound then storeCreated (← createCerts cal)
    else return some err

end Programs

/-- What was fetched is kept before the storage is unlocked. -/
def keepSecret (agent : Nat) : Except GoErr Certs → P (Except GoErr Certs)
  | .error err => do
    ask (.unlock agent)
    return .error err
  | .ok certs => do
    ask (.cacheSecret agent certs)
    ask (.unlock agent)
    return .ok certs

def getCached (agent : Nat) : Option Certs → P (Except GoErr Certs)
  | some certs => do
    ask (.unlock agent)
    return .ok certs
  | none => do keepSecret agent (← fetchSecret)

/-- `GetCerts` of the storage of an agent. -/
def getCerts (agent : Nat) : P (Except GoErr Certs) := do
  ask (.lock agent)
  getCached agent (← ask (.cachedSecret agent))

def prepareCredentials (agent : Nat) : P (Except GoErr Credentials) := do
  return (← getCerts agent) >>= credentialsFrom

/-! ## 4. The parties -/

/-- The storage of an agent: the Secret it keeps, and who holds its mutex. -/
structure Storage where
  secret : Option Certs
  lockedBy : Option Party
deriving DecidableEq, Repr

/-- A key that was generated: who did it, and how late it was when that party last looked
at the clock. -/
structure Generated where
  owner : Party
  lastRead : Time
deriving DecidableEq, Repr

/-- The clock and when each party last looked at it, the generated keys, the Secret with
all its versions, and of each agent its storage and its credentials. -/
structure World where
  now : Time
  lastRead : Party → Time
  keys : List Generated
  secret : Store (Option Certs)
  storage : Nat → Storage
  server : Nat → Option Credentials
  client : Nat → Option Credentials

def World.setStorage (w : World) (agent : Nat) (s : Storage) : World :=
  { w with storage := Function.update w.storage agent s }

/-- The party looks at the clock. -/
def World.read (w : World) (i : Party) : World :=
  { w with lastRead := Function.update w.lastRead i w.now }

/-- The party generates the next key. -/
def World.generate (w : World) (i : Party) : World :=
  { w with keys := w.keys ++ [⟨i, w.lastRead i⟩] }

/-- What a call of a party can do. Reads of the Secret may be as old as they like, and an
answer to a write may be lost. -/
inductive Exec (i : Party) : (c : Call) → World → Resp c → World → Prop
  | now {w : World} : Exec i .now w w.now (w.read i)
  | key {w : World} : Exec i .generateKey w (.ok w.keys.length) (w.generate i)
  | noKey {w : World} (err : GoErr) : Exec i .generateKey w (.error err) w
  | lock {w : World} {agent : Nat} (h : (w.storage agent).lockedBy = none) :
      Exec i (.lock agent) w () (w.setStorage agent ⟨(w.storage agent).secret, some i⟩)
  | unlock {w : World} {agent : Nat} :
      Exec i (.unlock agent) w () (w.setStorage agent ⟨(w.storage agent).secret, none⟩)
  | cached {w : World} {agent : Nat} :
      Exec i (.cachedSecret agent) w (w.storage agent).secret w
  | informer {w : World} (r : Option GoErr) : Exec i .getInformer w r w
  | found {w : World} {n : Nat} {certs : Certs}
      (h : w.secret.version n = some (some certs)) : Exec i .getSecret w (.ok certs) w
  | notFound {w : World} {n : Nat} (h : w.secret.version n = some none) :
      Exec i .getSecret w (.error ⟨.notFound, "not found"⟩) w
  | getFailed {w : World} {err : GoErr} (h : err.isNotFound = false) :
      Exec i .getSecret w (.error err) w
  | cache {w : World} {agent : Nat} {certs : Certs} :
      Exec i (.cacheSecret agent certs) w ()
        (w.setStorage agent ⟨some certs, (w.storage agent).lockedBy⟩)
  | created {w : World} {certs : Certs} (h : w.secret.current = none) (r : CreateAnswer) :
      Exec i (.createSecret certs) w r { w with secret := w.secret.put (some certs) }
  | exists_ {w : World} {certs old : Certs} (h : w.secret.current = some old) :
      Exec i (.createSecret certs) w .alreadyExists w
  | createFailed {w : World} {certs : Certs} (err : GoErr) :
      Exec i (.createSecret certs) w (.failed err) w

abbrev Res : Party → Type
  | .manager _ => Option GoErr
  | .server _ | .client _ => Except GoErr Credentials

/-- Time passes, and the Secret may be deleted if this is allowed. -/
inductive Env (deletable : Bool) : World → World → Prop
  | time {w : World} {t : Time} (h : w.now ≤ t) : Env deletable w { w with now := t }
  | delete {w : World} (h : deletable = true) :
      Env deletable w { w with secret := w.secret.put none }

def World.setServer (w : World) (agent : Nat) : Except GoErr Credentials → World
  | .ok creds => { w with server := Function.update w.server agent (some creds) }
  | .error _ => w

def World.setClient (w : World) (agent : Nat) : Except GoErr Credentials → World
  | .ok creds => { w with client := Function.update w.client agent (some creds) }
  | .error _ => w

def main (cal : Calendar) : (i : Party) → P (Res i)
  | .manager _ => syncCerts cal
  | .server agent => prepareCredentials agent
  | .client agent => prepareCredentials agent

/-- Managers sync again and again; an agent gets its credentials once. -/
def ready : Party → World → Prop
  | .manager _, _ => True
  | .server agent, w => w.server agent = none
  | .client agent, w => w.client agent = none

def finish : (i : Party) → Res i → World → World
  | .manager _, _, w => w
  | .server agent, r, w => w.setServer agent r
  | .client agent, r, w => w.setClient agent r

def team (cal : Calendar) (deletable : Bool) :
    Team (fun _ : Party => Call) (fun _ => Resp) Res World where
  main := main cal
  ready := ready
  start _ w := w
  exec := Exec
  finish := finish
  env := Env deletable

/-- Nothing was issued yet. -/
def initial (now : Time) : World where
  now := now
  lastRead _ := now
  keys := []
  secret := ⟨none, []⟩
  storage _ := ⟨none, none⟩
  server _ := none
  client _ := none

/-- The states of all interleavings. -/
def Reached (cal : Calendar) (deletable : Bool) (now : Time)
    (s : TeamState (fun _ : Party => Call) (fun _ => Resp) Res World) : Prop :=
  (team cal deletable).Reachable (fun _ _ _ => True) (initial now) s

/-! ## 5. Certificates that were issued together -/

/-- What `CreateCerts` made in one run: `ca` signed itself and the certificate, whose key
is stored beside it. The CA lasts ten years from `caMade`, and the certificate, which was
made later, from `made`. -/
structure Issued (cal : Calendar) (certs : Certs) (ca cert : Certificate) (caMade made : Time) :
    Prop where
  certs_eq : certs = ⟨.certificate ca, .certificate cert, .privateKey cert.publicKey⟩
  isCA : ca.isCA = true
  certSign : ca.keyUsageCertSign = true
  leaf : cert.isCA = false
  signed : cert.signedBy = ca.publicKey
  ip : cert.ipAddresses = [fixedCertIP]
  caBefore : ca.notBefore ≤ cert.notBefore
  caFirst : caMade ≤ made
  caExpires : ca.notAfter = (cal.addTenYears caMade).truncate
  expires : cert.notAfter = (cal.addTenYears made).truncate

section Handshakes

variable {cal : Calendar} {certs certs' : Certs} {ca cert ca' cert' : Certificate}
  {caMade made caMade' made' : Time}

theorem Issued.credentials (h : Issued cal certs ca cert caMade made) :
    credentialsFrom certs = .ok ⟨cert, cert.publicKey, [ca]⟩ := by
  rw [h.certs_eq]
  unfold credentialsFrom
  rw [x509KeyPair, if_pos rfl]
  rfl

/-- A CA trusts an issued certificate if it signed it, and both are valid. -/
theorem Issued.trusted_iff (h : Issued cal certs ca cert caMade made)
    (h' : Issued cal certs' ca' cert' caMade' made') (t : Time) : Trusted [ca] cert' t ↔
      cert'.validAt t ∧ ca.validAt t ∧ ca'.publicKey = ca.publicKey := by
  have hne : cert' ≠ ca := by
    rintro rfl
    exact absurd (h.isCA.symm.trans h'.leaf) (by decide)
  unfold Trusted Certificate.signedFrom
  rw [h'.signed]
  simp [hne, h.isCA, h.certSign, and_comm]

/-- Two agents accept each other if they trust the same CA and all certificates are
valid. -/
theorem Issued.handshake_iff (h : Issued cal certs ca cert caMade made)
    (h' : Issued cal certs' ca' cert' caMade' made') (t : Time) :
    Handshake ⟨cert, cert.publicKey, [ca]⟩ ⟨cert', cert'.publicKey, [ca']⟩ t ↔
      ca.publicKey = ca'.publicKey ∧ (cert.validAt t ∧ ca.validAt t) ∧
        cert'.validAt t ∧ ca'.validAt t := by
  unfold Handshake
  show Trusted [ca'] cert t ∧ Trusted [ca] cert' t ∧ fixedCertIP ∈ cert'.ipAddresses ↔ _
  rw [h'.trusted_iff h, h.trusted_iff h', h'.ip]
  constructor
  · rintro ⟨⟨hcert, hca', hkey⟩, ⟨hcert', hca, -⟩, -⟩
    exact ⟨hkey, ⟨hcert, hca⟩, hcert', hca'⟩
  · rintro ⟨hkey, ⟨hcert, hca⟩, hcert', hca'⟩
    exact ⟨⟨hcert, hca', hkey⟩, ⟨hcert', hca, hkey.symm⟩, List.mem_singleton_self _⟩

/-- The certificate and its CA are valid until the first of them expires. -/
theorem Issued.valid_iff (h : Issued cal certs ca cert caMade made) {t : Time}
    (ht : cert.notBefore ≤ t) :
    cert.validAt t ∧ ca.validAt t ↔ t ≤ min ca.notAfter cert.notAfter := by
  rw [Int.le_min]
  constructor
  · exact fun ⟨hcert, hca⟩ => ⟨hca.2, hcert.2⟩
  · exact fun ⟨hca, hcert⟩ => ⟨⟨ht, hcert⟩, Int.le_trans h.caBefore ht, hca⟩

/-- A Secret has one CA and one certificate. -/
theorem Issued.same (h : Issued cal certs ca cert caMade made)
    (h' : Issued cal certs ca' cert' caMade' made') : ca' = ca ∧ cert' = cert := by
  have heq := h'.certs_eq.symm.trans h.certs_eq
  simp only [Certs.mk.injEq, Pem.certificate.injEq] at heq
  exact ⟨heq.1, heq.2.1⟩

end Handshakes

/-! ## 6. What the parties rely on -/

/-- The key of the CA. -/
def Certs.caKey (certs : Certs) : Option Key :=
  match certs.caPem with
  | .certificate ca => some ca.publicKey
  | .privateKey _ => none

/-- The Secret was stored at some time. -/
def Stored (w : World) (certs : Certs) : Prop := ∃ n, w.secret.version n = some (some certs)

/-- The key was generated by a party that had last looked at the clock at `t`. -/
def ReadBefore (keys : List Generated) (key : Key) (t : Time) : Prop :=
  ∃ i, keys[key]? = some ⟨i, t⟩

/-- Issued by now, each certificate from the clock as it was read before its key was
generated. -/
structure IssuedFrom (cal : Calendar) (keys : List Generated) (now : Time) (certs : Certs)
    (ca cert : Certificate) (caMade made : Time) : Prop
    extends Issued cal certs ca cert caMade made where
  caRead : ReadBefore keys ca.publicKey caMade
  read : ReadBefore keys cert.publicKey made
  begun : cert.notBefore ≤ now
  past : made ≤ now

def IssuedBy (cal : Calendar) (keys : List Generated) (now : Time) (certs : Certs) : Prop :=
  ∃ ca cert caMade made, IssuedFrom cal keys now certs ca cert caMade made

/-- The credentials come from what the storage of the agent keeps. -/
def FromStorage (w : World) (agent : Nat) (creds : Credentials) : Prop :=
  ∃ certs, (w.storage agent).secret = some certs ∧ credentialsFrom certs = .ok creds

structure CertInv (cal : Calendar) (deletable : Bool) (w : World) : Prop where
  issued : ∀ certs, Stored w certs → IssuedBy cal w.keys w.now certs
  known : ∀ certs, Stored w certs → ∃ key, certs.caKey = some key ∧ key < w.keys.length
  unique : ∀ certs certs', Stored w certs → Stored w certs' → certs.caKey = certs'.caKey →
    certs = certs'
  kept : ∀ agent certs, (w.storage agent).secret = some certs → Stored w certs
  server : ∀ agent creds, w.server agent = some creds → FromStorage w agent creds
  client : ∀ agent creds, w.client agent = some creds → FromStorage w agent creds
  once : deletable = false → w.secret.Steps fun a b => ∀ certs, a = some certs → b = some certs

/-- The party generated the key. -/
def Owns (keys : List Generated) (i : Party) (key : Key) : Prop := ∃ t, keys[key]? = some ⟨i, t⟩

/-- What a party can count on while others move: time goes on, it alone knows when it
looked at the clock, keys and Secrets that were stored stay known, what a storage keeps is
kept, a storage that it locked is left alone, and nobody else stores its keys. -/
structure Rely (i : Party) (w w' : World) : Prop where
  time : w.now ≤ w'.now
  lastRead : w'.lastRead i = w.lastRead i
  stored : w.secret.Extends w'.secret
  keys : w.keys <+: w'.keys
  kept : ∀ agent certs, (w.storage agent).secret = some certs →
    (w'.storage agent).secret = some certs
  locked : ∀ agent, (w.storage agent).lockedBy = some i → w'.storage agent = w.storage agent
  own : ∀ k certs, Owns w.keys i k → certs.caKey = some k → Stored w' certs → Stored w certs

/-- What a party needs for its calls. -/
def Allowed (cal : Calendar) (i : Party) : Call → World → Prop
  | .unlock agent, w => (w.storage agent).lockedBy = some i
  | .cacheSecret agent certs, w =>
    (w.storage agent).lockedBy = some i ∧ (w.storage agent).secret = none ∧ Stored w certs
  | .createSecret certs, w => IssuedBy cal w.keys w.now certs ∧
    ∃ key, certs.caKey = some key ∧ Owns w.keys i key ∧
      ∀ certs', certs'.caKey = some key → ¬ Stored w certs'
  | _, _ => True

def Post : (i : Party) → Res i → World → Prop
  | .manager _, _, _ => True
  | .server agent, r, w => ∀ creds, r = .ok creds → FromStorage w agent creds
  | .client agent, r, w => ∀ creds, r = .ok creds → FromStorage w agent creds

def assertions (cal : Calendar) (deletable : Bool) :
    Assertions (fun _ : Party => Call) Res World where
  inv := CertInv cal deletable
  rely := Rely
  allowed := Allowed cal
  post := Post

section Moves

variable {cal : Calendar} {deletable : Bool} {i j : Party} {w w' : World} {agent : Nat}
  {certs : Certs} {creds : Credentials}

theorem keys_later {keys keys' : List Generated} {key : Key} {g : Generated}
    (h : keys[key]? = some g) (hkeys : keys <+: keys') : keys'[key]? = some g := by
  obtain ⟨new, rfl⟩ := hkeys
  obtain ⟨hlt, -⟩ := List.getElem?_eq_some_iff.mp h
  rwa [List.getElem?_append_left hlt]

theorem ReadBefore.later {key : Key} {t : Time} (h : ReadBefore w.keys key t)
    (hkeys : w.keys <+: w'.keys) : ReadBefore w'.keys key t := by
  obtain ⟨i, hi⟩ := h
  exact ⟨i, keys_later hi hkeys⟩

theorem Owns.later {key : Key} (h : Owns w.keys i key) (hkeys : w.keys <+: w'.keys) :
    Owns w'.keys i key := by
  obtain ⟨t, ht⟩ := h
  exact ⟨t, keys_later ht hkeys⟩

theorem IssuedBy.later (h : IssuedBy cal w.keys w.now certs) (ht : w.now ≤ w'.now)
    (hkeys : w.keys <+: w'.keys) : IssuedBy cal w'.keys w'.now certs := by
  obtain ⟨ca, cert, caMade, made, hi⟩ := h
  exact ⟨ca, cert, caMade, made, hi.toIssued, hi.caRead.later hkeys, hi.read.later hkeys,
    Int.le_trans hi.begun ht, Int.le_trans hi.past ht⟩

theorem Stored.later (h : Stored w certs) (he : w.secret.Extends w'.secret) : Stored w' certs := by
  obtain ⟨n, hn⟩ := h
  exact ⟨n, he n _ hn⟩

theorem stored_put {new : Option Certs} (h : Stored { w with secret := w.secret.put new } certs) :
    Stored w certs ∨ new = some certs := by
  obtain ⟨n, hn⟩ := h
  rcases version_put hn with ⟨_, hv⟩ | ⟨_, hnew⟩
  · exact .inl ⟨n, hv⟩
  · exact .inr hnew.symm

theorem FromStorage.later (h : FromStorage w agent creds)
    (hkeep : ∀ certs, (w.storage agent).secret = some certs →
      (w'.storage agent).secret = some certs) : FromStorage w' agent creds := by
  obtain ⟨certs, hcerts, hcreds⟩ := h
  exact ⟨certs, hkeep certs hcerts, hcreds⟩

theorem Rely.idle {server client : Nat → Option Credentials} :
    Rely i w { w with server := server, client := client } where
  time := Int.le_refl _
  lastRead := rfl
  stored := .refl _
  keys := List.prefix_refl _
  kept _ _ h := h
  locked _ _ := rfl
  own _ _ _ _ h := h

theorem Rely.refl (i : Party) (w : World) : Rely i w w := Rely.idle

/-! ### Time and keys -/

theorem CertInv.time (h : CertInv cal deletable w) {t : Time} (ht : w.now ≤ t) :
    CertInv cal deletable { w with now := t } :=
  { h with issued := fun certs hs => (h.issued certs hs).later ht (List.prefix_refl _) }

theorem Rely.time_passes {t : Time} (ht : w.now ≤ t) : Rely i w { w with now := t } :=
  { Rely.refl i w with time := ht }

theorem CertInv.read (h : CertInv cal deletable w) : CertInv cal deletable (w.read i) := { h with }

theorem Rely.read (hij : j ≠ i) : Rely j w (w.read i) :=
  { Rely.refl j w with lastRead := Function.update_of_ne hij _ _ }

theorem keys_generate : w.keys <+: (w.generate i).keys := List.prefix_append _ _

theorem CertInv.generate (h : CertInv cal deletable w) : CertInv cal deletable (w.generate i) := by
  refine { h with
    issued := fun certs hs => (h.issued certs hs).later (Int.le_refl _) keys_generate
    known := fun certs hs => ?_ }
  obtain ⟨key, hkey, hlt⟩ := h.known certs hs
  exact ⟨key, hkey, Nat.lt_of_lt_of_le hlt keys_generate.length_le⟩

theorem Rely.generate : Rely j w (w.generate i) :=
  { Rely.refl j w with keys := keys_generate }

/-! ### The storage of an agent -/

theorem setStorage_keeps {s : Storage}
    (hkeep : ∀ certs, (w.storage agent).secret = some certs → s.secret = some certs)
    (b : Nat) (certs : Certs) (h : (w.storage b).secret = some certs) :
    ((w.setStorage agent s).storage b).secret = some certs := by
  unfold World.setStorage
  by_cases hb : b = agent
  · subst hb
    simpa using hkeep certs h
  · simpa [hb] using h

theorem CertInv.setStorage (h : CertInv cal deletable w) {s : Storage}
    (hkeep : ∀ certs, (w.storage agent).secret = some certs → s.secret = some certs)
    (hs : ∀ certs, s.secret = some certs → Stored w certs) :
    CertInv cal deletable (w.setStorage agent s) where
  issued := h.issued
  known := h.known
  unique := h.unique
  kept b certs hb := by
    unfold World.setStorage at hb
    by_cases hba : b = agent
    · subst hba
      exact hs certs (by simpa using hb)
    · exact h.kept b certs (by simpa [hba] using hb)
  server b creds hb := (h.server b creds hb).later (setStorage_keeps hkeep b)
  client b creds hb := (h.client b creds hb).later (setStorage_keeps hkeep b)
  once := h.once

theorem Rely.setStorage {s : Storage} (hfree : (w.storage agent).lockedBy ≠ some j)
    (hkeep : ∀ certs, (w.storage agent).secret = some certs → s.secret = some certs) :
    Rely j w (w.setStorage agent s) where
  time := Int.le_refl _
  lastRead := rfl
  stored := .refl _
  keys := List.prefix_refl _
  kept := setStorage_keeps hkeep
  locked b hb := by
    have hne : b ≠ agent := by
      rintro rfl
      exact hfree hb
    simp [World.setStorage, hne]
  own _ _ _ _ h := h

/-! ### Writes of the Secret -/

theorem Rely.put {new : Option Certs}
    (hown : ∀ k certs, Owns w.keys j k → certs.caKey = some k → new ≠ some certs) :
    Rely j w { w with secret := w.secret.put new } where
  time := Int.le_refl _
  lastRead := rfl
  stored := extends_put _ _
  keys := List.prefix_refl _
  kept _ _ h := h
  locked _ _ := rfl
  own k certs hk hca hs := (stored_put hs).resolve_right (hown k certs hk hca)

theorem CertInv.delete (h : CertInv cal true w) :
    CertInv cal true { w with secret := w.secret.put none } where
  issued certs hs := h.issued certs ((stored_put hs).resolve_right (nomatch ·))
  known certs hs := h.known certs ((stored_put hs).resolve_right (nomatch ·))
  unique certs certs' hs hs' := h.unique certs certs' ((stored_put hs).resolve_right (nomatch ·))
    ((stored_put hs').resolve_right (nomatch ·))
  kept agent certs hc := (h.kept agent certs hc).later (extends_put _ _)
  server := h.server
  client := h.client
  once hd := nomatch hd

/-- A fresh CA can be stored where no Secret is. -/
theorem CertInv.create (h : CertInv cal deletable w) (hnone : w.secret.current = none)
    (hallowed : Allowed cal i (.createSecret certs) w) :
    CertInv cal deletable { w with secret := w.secret.put (some certs) } := by
  obtain ⟨hissued, key, hkey, howner, hfresh⟩ := hallowed
  obtain ⟨_, howner⟩ := howner
  have hlt : key < w.keys.length := (List.getElem?_eq_some_iff.mp howner).1
  refine ⟨?_, ?_, ?_, ?_, h.server, h.client, ?_⟩
  · intro certs' hs
    rcases stored_put hs with hs | hnew
    · exact h.issued certs' hs
    · cases hnew
      exact hissued
  · intro certs' hs
    rcases stored_put hs with hs | hnew
    · exact h.known certs' hs
    · cases hnew
      exact ⟨key, hkey, hlt⟩
  · intro a b ha hb hab
    rcases stored_put ha with ha | hnew <;> rcases stored_put hb with hb | hnew'
    · exact h.unique a b ha hb hab
    · cases hnew'
      exact absurd ha (hfresh a (hab.trans hkey))
    · cases hnew
      exact absurd hb (hfresh b (hab.symm.trans hkey))
    · cases hnew
      cases hnew'
      rfl
  · intro agent certs' hc
    exact (h.kept agent certs' hc).later (extends_put _ _)
  · intro hd
    refine steps_put (h.once hd) ?_
    intro certs' hc
    rw [hnone] at hc
    cases hc

/-- Whoever stores a CA owns its key, and no two parties own one key. -/
theorem Rely.create (hij : j ≠ i) (hallowed : Allowed cal i (.createSecret certs) w) :
    Rely j w { w with secret := w.secret.put (some certs) } := by
  obtain ⟨-, key, hkey, ⟨t, howner⟩, -⟩ := hallowed
  refine Rely.put fun k certs' hk hca hnew => ?_
  cases hnew
  rw [hkey] at hca
  cases hca
  obtain ⟨t', hk⟩ := hk
  rw [howner] at hk
  exact hij (congrArg Generated.owner (Option.some.inj hk)).symm

end Moves

/-- Every call of a party keeps the invariant, and the others can go on. -/
theorem call_proved {cal : Calendar} {deletable : Bool} {i : Party} {c : Call} {w w' : World}
    {r : Resp c} (h : CertInv cal deletable w) (hallowed : Allowed cal i c w)
    (he : Exec i c w r w') : CertInv cal deletable w' ∧ ∀ j, j ≠ i → Rely j w w' := by
  cases he with
  | noKey _ | cached | informer _ | found _ | notFound _ | getFailed _ | exists_ _
  | createFailed _ => exact ⟨h, fun j _ => .refl j w⟩
  | now => exact ⟨h.read, fun _ hj => .read hj⟩
  | key => exact ⟨h.generate, fun _ _ => .generate⟩
  | @lock _ agent hfree =>
    refine ⟨h.setStorage (fun _ hs => hs) (h.kept agent), fun j _ => .setStorage ?_ fun _ hs => hs⟩
    simp [hfree]
  | @unlock _ agent =>
    refine ⟨h.setStorage (fun _ hs => hs) (h.kept agent),
      fun j hj => .setStorage ?_ fun _ hs => hs⟩
    rw [hallowed]
    exact fun hi => hj (Option.some.inj hi).symm
  | @cache _ agent certs =>
    obtain ⟨hlocked, hnone, hstored⟩ := hallowed
    -- nothing was cached, so nothing that a caller saw is lost
    have hkeep : ∀ certs', (w.storage agent).secret = some certs' → some certs = some certs' :=
      fun certs' hc => absurd (hnone.symm.trans hc) (by simp)
    refine ⟨h.setStorage hkeep ?_, fun j hj => .setStorage ?_ hkeep⟩
    · intro certs' hc
      cases hc
      exact hstored
    · rw [hlocked]
      exact fun hi => hj (Option.some.inj hi).symm
  | created hnone r => exact ⟨h.create hnone hallowed, fun j hj => .create hj hallowed⟩

/-! ## 7. The programs keep to it -/

/-- The proof outline of one party. -/
abbrev outline (cal : Calendar) (deletable : Bool) (i : Party) : Outline Call Resp World :=
  (assertions cal deletable).outline (team cal deletable) (fun _ _ _ => True) i

section Outlines

variable {cal : Calendar} {deletable : Bool} {i : Party} {w : World} {agent : Nat}

theorem stable_time (t : Time) : (outline cal deletable i).Stable fun w => t ≤ w.now :=
  fun _ _ h he => Int.le_trans h he.1.time

/-- The party holds the mutex, and the storage keeps `secret`. -/
def Holds (i : Party) (agent : Nat) (secret : Option Certs) (w : World) : Prop :=
  w.storage agent = ⟨secret, some i⟩

theorem stable_holds (secret : Option Certs) :
    (outline cal deletable i).Stable (Holds i agent secret) := by
  intro w w' h he
  have hlocked : (w.storage agent).lockedBy = some i := by rw [h]
  exact (he.1.locked agent hlocked).trans h

theorem stable_stored (certs : Certs) :
    (outline cal deletable i).Stable fun w => Stored w certs :=
  fun _ _ h he => h.later he.1.stored

/-- The party generated the key, and has stored no CA with it. -/
def Fresh (i : Party) (key : Key) (w : World) : Prop :=
  Owns w.keys i key ∧ ∀ certs, certs.caKey = some key → ¬ Stored w certs

theorem stable_fresh (key : Key) : (outline cal deletable i).Stable (Fresh i key) :=
  fun _ _ h he => ⟨h.1.later he.1.keys, fun certs hca hs =>
    h.2 certs hca (he.1.own key certs h.1 hca hs)⟩

theorem stable_readBefore (key : Key) (t : Time) :
    (outline cal deletable i).Stable fun w => ReadBefore w.keys key t :=
  fun _ _ h he => h.later he.1.keys

theorem stable_lastRead (t : Time) : (outline cal deletable i).Stable fun w => w.lastRead i = t :=
  fun _ _ h he => he.1.lastRead.trans h

/-! ### Creation -/

theorem truncate_mono {s t : Int} (h : s ≤ t) : Time.truncate s ≤ Time.truncate t := by
  change s - s % 1000000000 ≤ t - t % 1000000000
  omega

theorem truncate_le (t : Int) : Time.truncate t ≤ t := by
  change t - t % 1000000000 ≤ t
  omega

theorem lastRead_read : (w.read i).lastRead i = w.now := Function.update_self _ _ _

/-- A template is made with two readings of the clock, of which the second was the party's
last. -/
theorem wp_newTemplate {S : World → Prop} {t : Time} (isCa : Bool)
    (hS : (outline cal deletable i).Stable S) (hread : ∀ w, S w → S (w.read i))
    (ht : ∀ w, S w → t ≤ w.now) (hw : S w) :
    (outline cal deletable i).wp (newTemplate cal isCa) (fun c w => S w ∧ ∃ now now',
      c = createCertTemplate cal isCa now now' ∧ t ≤ now ∧ now ≤ now' ∧ now' ≤ w.now ∧
        w.lastRead i = now') w := by
  refine Outline.wp_call hS hw (fun _ _ _ => trivial) ?_
  rintro w₁ r w₁' - hS₁ ⟨he, -⟩ -
  cases he
  refine Outline.wp_call (hS.and (stable_time w₁.now)) ⟨hread w₁ hS₁, Int.le_refl w₁.now⟩
    (fun _ _ _ => trivial) ?_
  rintro w₂ r w₂' - ⟨hS₂, hle⟩ ⟨he, -⟩ -
  cases he
  refine Outline.wp_ret (hS.and ((stable_time w₂.now).and (stable_lastRead w₂.now)))
    ⟨hread w₂ hS₂, Int.le_refl w₂.now, lastRead_read⟩ ?_
  exact fun w₃ _ h => ⟨h.1, _, _, rfl, ht w₁ hS₁, hle, h.2⟩

theorem issued_created {t₀ t₁ t₂ t₃ : Time} {caKey key : Key} (h₁ : t₀ ≤ t₂) (h₂ : t₁ ≤ t₃) :
    Issued cal ⟨.certificate (selfSign (createCertTemplate cal true t₀ t₁) caKey),
        .certificate (sign (createCertTemplate cal false t₂ t₃) key caKey), .privateKey key⟩
      (selfSign (createCertTemplate cal true t₀ t₁) caKey)
      (sign (createCertTemplate cal false t₂ t₃) key caKey) t₁ t₃ where
  certs_eq := rfl
  isCA := rfl
  certSign := rfl
  leaf := rfl
  signed := rfl
  ip := rfl
  caBefore := truncate_mono h₁
  caFirst := h₂
  caExpires := rfl
  expires := rfl

/-- The key that is generated next, with the clock as it was last read. -/
theorem generate_next : (w.generate i).keys[w.keys.length]? = some ⟨i, w.lastRead i⟩ :=
  List.getElem?_concat_length

/-- What may be stored. -/
def Storable (cal : Calendar) (i : Party) (r : Except GoErr Certs) (w : World) : Prop :=
  ∀ certs, r = .ok certs → Allowed cal i (.createSecret certs) w

theorem wp_createCert {t₀ t₁ : Time} {caKey : Key} (hle : t₀ ≤ t₁) (hnow : t₁ ≤ w.now)
    (hfresh : Fresh i caKey w) (hca : ReadBefore w.keys caKey t₁) :
    (outline cal deletable i).wp (createCert cal (createCertTemplate cal true t₀ t₁) caKey)
      (Storable cal i) w := by
  -- the key of the CA stays fresh, and with it the clock as it was read for the CA
  have hkey : (outline cal deletable i).Stable
      fun w => Fresh i caKey w ∧ ReadBefore w.keys caKey t₁ :=
    (stable_fresh caKey).and (stable_readBefore caKey t₁)
  refine Outline.wp_bind (Outline.wp_mono (wp_newTemplate (t := t₁) false
    ((stable_time t₁).and hkey) (fun _ h => h) (fun _ h => h.1) ⟨hnow, hfresh, hca⟩) ?_)
  rintro c w₁ - ⟨⟨-, hfresh⟩, t₂, t₃, rfl, h₁, h₂, h₃, hlast⟩
  refine Outline.wp_call (((stable_time t₃).and (stable_lastRead t₃)).and hkey)
    ⟨⟨h₃, hlast⟩, hfresh⟩ (fun _ _ _ => trivial) ?_
  rintro w₂ r w₂' - ⟨⟨hnow, hlast⟩, hfresh, hca⟩ ⟨he, -⟩ -
  cases he with
  | noKey err => exact Outline.wp_ret Outline.stable_const trivial fun _ _ _ _ h => nomatch h
  | key =>
    have hnext : ReadBefore (w₂.generate i).keys w₂.keys.length t₃ := by
      rw [← hlast]
      exact ⟨i, generate_next⟩
    have hkept : Fresh i caKey (w₂.generate i) := ⟨hfresh.1.later keys_generate, hfresh.2⟩
    refine Outline.wp_ret (((stable_time t₃).and (stable_readBefore _ t₃)).and hkey)
      ⟨⟨hnow, hnext⟩, hkept, hca.later keys_generate⟩ ?_
    rintro w₃ - ⟨⟨hnow, hnext⟩, hfresh, hca⟩ certs hcerts
    cases hcerts
    refine ⟨⟨_, _, t₁, t₃, issued_created (Int.le_trans hle h₁) (Int.le_trans h₁ h₂), hca, hnext,
      ?_, hnow⟩, caKey, rfl, hfresh⟩
    exact Int.le_trans (truncate_le t₂) (Int.le_trans h₂ hnow)

/-- What `CreateCerts` returns may be stored. -/
theorem wp_createCerts : (outline cal deletable i).wp (createCerts cal) (Storable cal i) w := by
  refine Outline.wp_of_later fun w _ _ => ?_
  refine Outline.wp_bind (Outline.wp_mono (wp_newTemplate (t := w.now) true
    (stable_time w.now) (fun _ h => h) (fun _ h => h) (Int.le_refl _)) ?_)
  rintro c w₁ - ⟨-, t₀, t₁, rfl, -, hle, hnow, hlast⟩
  refine Outline.wp_call ((stable_time t₁).and (stable_lastRead t₁)) ⟨hnow, hlast⟩
    (fun _ _ _ => trivial) ?_
  rintro w₂ r w₂' hinv ⟨hnow, hlast⟩ ⟨he, -⟩ -
  cases he with
  | noKey err => exact Outline.wp_ret Outline.stable_const trivial fun _ _ _ _ h => nomatch h
  | key =>
    have hnext : (w₂.generate i).keys[w₂.keys.length]? = some ⟨i, t₁⟩ := by
      rw [← hlast]
      exact generate_next
    refine wp_createCert hle hnow ⟨⟨t₁, hnext⟩, fun certs hca hs => ?_⟩ ⟨i, hnext⟩
    -- the key is new: every stored CA has an older one
    obtain ⟨key, hkey, hlt⟩ := hinv.known certs hs
    rw [hca] at hkey
    cases hkey
    exact Nat.lt_irrefl _ hlt

theorem stable_storable (r : Except GoErr Certs) :
    (outline cal deletable i).Stable (Storable cal i r) := by
  intro w w' h he certs hr
  obtain ⟨hissued, key, hkey, hfresh⟩ := h certs hr
  exact ⟨hissued.later he.1.time he.1.keys, key, hkey, stable_fresh key _ _ hfresh he⟩

theorem wp_storeCreated {r : Except GoErr Certs} (h : Storable cal i r w) :
    (outline cal deletable i).wp (storeCreated r) (fun _ _ => True) w := by
  cases r with
  | error err => exact fun _ _ _ => trivial
  | ok certs =>
    refine Outline.wp_call (stable_storable _) h (fun _ _ h => h certs rfl) ?_
    intro _ r _ _ _ _ _
    cases r <;> exact fun _ _ _ => trivial

/-! ### Reads -/

theorem wp_fetchSecret {S : World → Prop} (hS : (outline cal deletable i).Stable S) (hw : S w) :
    (outline cal deletable i).wp fetchSecret
      (fun r w => S w ∧ ∀ certs, r = .ok certs → Stored w certs) w := by
  refine Outline.wp_call hS hw (fun _ _ _ => trivial) ?_
  rintro w₁ r w₁' - hS₁ ⟨he, -⟩ -
  cases he
  cases r with
  | some err => exact Outline.wp_ret hS hS₁ fun _ _ h => ⟨h, fun _ hr => nomatch hr⟩
  | none =>
    refine Outline.wp_call hS hS₁ (fun _ _ _ => trivial) ?_
    rintro w₂ r w₂' - hS₂ ⟨he, -⟩ -
    cases he with
    | found hv =>
      refine Outline.wp_ret (hS.and (stable_stored _)) ⟨hS₂, _, hv⟩ fun w₃ _ h => ⟨h.1, ?_⟩
      intro certs hr
      cases hr
      exact h.2
    | notFound _ | getFailed _ =>
      exact Outline.wp_ret hS hS₂ fun _ _ h => ⟨h, fun _ hr => nomatch hr⟩

/-- The certificates that were returned are the ones that are kept. -/
def Kept (agent : Nat) (r : Except GoErr Certs) (w : World) : Prop :=
  ∀ certs, r = .ok certs → (w.storage agent).secret = some certs

theorem stable_kept (r : Except GoErr Certs) :
    (outline cal deletable i).Stable (Kept agent r) :=
  fun _ _ h he certs hr => he.1.kept agent certs (h certs hr)

/-- The end of every path: the mutex is released. -/
theorem wp_unlock {secret : Option Certs} {r : Except GoErr Certs}
    (hr : ∀ certs, r = .ok certs → secret = some certs) (hw : Holds i agent secret w) :
    (outline cal deletable i).wp (do ask (.unlock agent); return r) (Kept agent) w := by
  refine Outline.wp_call (stable_holds secret) hw (fun w _ h => by
    show (w.storage agent).lockedBy = some i
    rw [h]) ?_
  rintro w₁ _ w₁' - hw ⟨he, -⟩ -
  cases he
  refine Outline.wp_ret (stable_kept r) ?_ fun _ _ h => h
  intro certs hcerts
  simp only [World.setStorage, Function.update_self]
  rw [hw]
  exact hr certs hcerts

theorem wp_getCerts : (outline cal deletable i).wp (getCerts agent) (Kept agent) w := by
  refine Outline.wp_call Outline.stable_const trivial (fun _ _ _ => trivial) ?_
  rintro w₁ _ w₁' - - ⟨he, -⟩ -
  cases he
  have hlocked : Holds i agent (w₁.storage agent).secret
      (w₁.setStorage agent ⟨(w₁.storage agent).secret, some i⟩) := by
    simp [Holds, World.setStorage]
  generalize (w₁.storage agent).secret = secret at hlocked
  refine Outline.wp_call (stable_holds secret) hlocked (fun _ _ _ => trivial) ?_
  rintro w₂ _ w₂' - hw₂ ⟨he, -⟩ -
  cases he
  show (outline cal deletable i).wp (getCached agent (w₂.storage agent).secret) _ _
  rw [hw₂]
  cases secret with
  | some certs => exact wp_unlock (fun _ h => by cases h; rfl) hw₂
  | none =>
    refine Outline.wp_bind (Outline.wp_mono (wp_fetchSecret (stable_holds none) hw₂) ?_)
    rintro r w₃ - ⟨hw₃, hstored⟩
    cases r with
    | error err => exact wp_unlock (fun _ h => nomatch h) hw₃
    | ok certs =>
      refine Outline.wp_call ((stable_holds none).and (stable_stored certs))
        ⟨hw₃, hstored certs rfl⟩ ?_ ?_
      · rintro w - ⟨hw, hs⟩
        refine ⟨?_, ?_, hs⟩ <;> rw [hw]
      · rintro w₄ _ w₄' - ⟨hw₄, -⟩ ⟨he, -⟩ -
        cases he
        have hw₅ : Holds i agent (some certs)
            (w₄.setStorage agent ⟨some certs, (w₄.storage agent).lockedBy⟩) := by
          simp [Holds, World.setStorage, show w₄.storage agent = _ from hw₄]
        exact wp_unlock (fun _ h => by cases h; rfl) hw₅

theorem wp_prepareCredentials :
    (outline cal deletable i).wp (prepareCredentials agent)
      (fun r w => ∀ creds, r = .ok creds → FromStorage w agent creds) w := by
  refine Outline.wp_bind (Outline.wp_mono wp_getCerts ?_)
  intro r w₁ _ hkept
  refine Outline.wp_ret (stable_kept r) hkept ?_
  intro w₂ _ hkept creds hcreds
  cases r with
  | error err => cases hcreds
  | ok certs => exact ⟨certs, hkept certs rfl, hcreds⟩

theorem wp_syncCerts : (outline cal deletable i).wp (syncCerts cal) (fun _ _ => True) w := by
  refine Outline.wp_bind (Outline.wp_mono
    (wp_fetchSecret Outline.stable_const (show True from trivial)) ?_)
  rintro r w₁ - -
  cases r with
  | ok certs => exact fun _ _ _ => trivial
  | error err =>
    show (outline cal deletable i).wp (if err.isNotFound then _ else _) _ _
    split
    · exact Outline.wp_bind (Outline.wp_mono wp_createCerts fun r w _ h => wp_storeCreated h)
    · exact fun _ _ _ => trivial

end Outlines

/-! ## 8. Undisturbed runs -/

section Runs

variable {cal : Calendar} {deletable : Bool} {i : Party} {w : World} {agent : Nat} {now : Time}
  {ps : (i : Party) → Option (P (Res i))}

theorem setStorage_storage (s : Storage) : (w.setStorage agent s).storage agent = s := by
  simp [World.setStorage]

theorem setStorage_setStorage (s s' : Storage) :
    (w.setStorage agent s).setStorage agent s' = w.setStorage agent s' := by
  simp [World.setStorage]

/-- An agent whose storage is free and empty gets its credentials from the stored Secret. -/
theorem prepareCredentials_runs {certs : Certs} {creds : Credentials}
    (hfree : w.storage agent = ⟨none, none⟩) (hsecret : w.secret.current = some certs)
    (hcreds : credentialsFrom certs = .ok creds) :
    (prepareCredentials agent).Runs (Exec i) w (.ok creds)
      (w.setStorage agent ⟨some certs, none⟩) := by
  have hlock : Exec i (.lock agent) w () _ := .lock (by rw [hfree])
  rw [hfree] at hlock
  have hcached : Exec i (.cachedSecret agent) (w.setStorage agent ⟨none, some i⟩) _ _ := .cached
  rw [setStorage_storage] at hcached
  have hget : Exec i .getSecret (w.setStorage agent ⟨none, some i⟩) (.ok certs)
      (w.setStorage agent ⟨none, some i⟩) :=
    .found (n := w.secret.resourceVersion) (version_resourceVersion.trans (congrArg some hsecret))
  have hcache : Exec i (.cacheSecret agent certs) (w.setStorage agent ⟨none, some i⟩) () _ :=
    .cache
  rw [setStorage_storage, setStorage_setStorage] at hcache
  have hunlock : Exec i (.unlock agent) (w.setStorage agent ⟨some certs, some i⟩) () _ := .unlock
  rw [setStorage_storage, setStorage_setStorage] at hunlock
  rw [← hcreds]
  exact .call hlock (.call hcached (.call (.informer none) (.call hget (.call hcache
    (.call hunlock .ret)))))

/-- What `CreateCerts` makes when the clock stands still and `key` is the next key. -/
def createdAt (cal : Calendar) (now : Time) (key : Key) : Certs :=
  ⟨.certificate (selfSign (createCertTemplate cal true now now) key),
    .certificate (sign (createCertTemplate cal false now now) (key + 1) key),
    .privateKey (key + 1)⟩

/-- The party reads the clock for each of the two templates, and generates their keys. -/
def World.createCerts (w : World) (i : Party) : World :=
  (((((w.read i).read i).generate i).read i).read i).generate i

/-- A manager that finds no Secret creates one. -/
theorem syncCerts_runs (hnone : w.secret.current = none) :
    (syncCerts cal).Runs (Exec i) w none { w.createCerts i with
      secret := w.secret.put (some (createdAt cal w.now w.keys.length)) } := by
  have hget : Exec i .getSecret w (.error ⟨.notFound, "not found"⟩) w :=
    .notFound (n := w.secret.resourceVersion) (version_resourceVersion.trans (congrArg some hnone))
  have hkey := Exec.key (i := i) (w := ((((w.read i).read i).generate i).read i).read i)
  have hlen : (((((w.read i).read i).generate i).read i).read i).keys.length = w.keys.length + 1 :=
    List.length_append
  rw [hlen] at hkey
  have hcreate : Exec i (.createSecret (createdAt cal w.now w.keys.length)) _ .created _ :=
    .created (w := w.createCerts i) hnone .created
  exact .call (.informer none) (.call hget (.call .now (.call .now (.call .key
    (.call .now (.call .now (.call hkey (.call hcreate .ret))))))))

theorem Reached.sync {n : Nat} (h : Reached cal deletable now ⟨w, ps⟩)
    (hidle : ps (.manager n) = none) (hnone : w.secret.current = none) :
    Reached cal deletable now ⟨{ w.createCerts (.manager n) with
      secret := w.secret.put (some (createdAt cal w.now w.keys.length)) }, ps⟩ :=
  (Team.Reachable.start h hidle trivial trivial).runs (fun _ _ _ => trivial) hidle
    (syncCerts_runs hnone)

section Agent

variable (agent : Nat) {certs : Certs} {creds : Credentials}
  (h : Reached cal deletable now ⟨w, ps⟩) (hfree : w.storage agent = ⟨none, none⟩)
  (hsecret : w.secret.current = some certs) (hcreds : credentialsFrom certs = .ok creds)

include h hfree hsecret hcreds

theorem Reached.prepareServer (hidle : ps (.server agent) = none)
    (hready : w.server agent = none) :
    Reached cal deletable now
      ⟨(w.setStorage agent ⟨some certs, none⟩).setServer agent (.ok creds), ps⟩ := by
  have hrun : (main cal (.server agent)).Runs (Exec (.server agent)) w (.ok creds) _ :=
    prepareCredentials_runs hfree hsecret hcreds
  exact (Team.Reachable.start h hidle hready trivial).runs (fun _ _ _ => trivial) hidle hrun

theorem Reached.prepareClient (hidle : ps (.client agent) = none)
    (hready : w.client agent = none) :
    Reached cal deletable now
      ⟨(w.setStorage agent ⟨some certs, none⟩).setClient agent (.ok creds), ps⟩ := by
  have hrun : (main cal (.client agent)).Runs (Exec (.client agent)) w (.ok creds) _ :=
    prepareCredentials_runs hfree hsecret hcreds
  exact (Team.Reachable.start h hidle hready trivial).runs (fun _ _ _ => trivial) hidle hrun

end Agent

theorem issued_createdAt (cal : Calendar) (t : Time) (key : Key) :
    Issued cal (createdAt cal t key) (selfSign (createCertTemplate cal true t t) key)
      (sign (createCertTemplate cal false t t) (key + 1) key) t t :=
  issued_created (Int.le_refl t) (Int.le_refl t)

end Runs

/-! ## 9. All interleavings -/

section Interleavings

variable {cal : Calendar} {deletable : Bool} {w : World} {agent : Nat} {now : Time}
  {s : TeamState (fun _ : Party => Call) (fun _ => Resp) Res World}

theorem CertInv.setServer (h : CertInv cal deletable w) {r : Except GoErr Credentials}
    (hr : ∀ creds, r = .ok creds → FromStorage w agent creds) :
    CertInv cal deletable (w.setServer agent r) ∧ ∀ j, Rely j w (w.setServer agent r) := by
  cases r with
  | error err => exact ⟨h, fun j => .refl j w⟩
  | ok creds =>
    refine ⟨{ h with server := ?_ }, fun j => .idle⟩
    intro b creds' hb
    by_cases hba : b = agent
    · subst hba
      simp only [World.setServer, Function.update_self, Option.some.injEq] at hb
      exact hb ▸ hr creds rfl
    · simp only [World.setServer, Function.update_of_ne hba] at hb
      exact h.server b creds' hb

theorem CertInv.setClient (h : CertInv cal deletable w) {r : Except GoErr Credentials}
    (hr : ∀ creds, r = .ok creds → FromStorage w agent creds) :
    CertInv cal deletable (w.setClient agent r) ∧ ∀ j, Rely j w (w.setClient agent r) := by
  cases r with
  | error err => exact ⟨h, fun j => .refl j w⟩
  | ok creds =>
    refine ⟨{ h with client := ?_ }, fun j => .idle⟩
    intro b creds' hb
    by_cases hba : b = agent
    · subst hba
      simp only [World.setClient, Function.update_self, Option.some.injEq] at hb
      exact hb ▸ hr creds rfl
    · simp only [World.setClient, Function.update_of_ne hba] at hb
      exact h.client b creds' hb

theorem wp_main (i : Party) :
    (outline cal deletable i).wp (main cal i) (Post i) w := by
  cases i with
  | manager n => exact wp_syncCerts
  | server agent => exact wp_prepareCredentials
  | client agent => exact wp_prepareCredentials

theorem proved : (assertions cal deletable).Proved (team cal deletable) (fun _ _ _ => True) where
  env h he _ := by
    cases he with
    | time ht => exact ⟨h.time ht, fun _ => .time_passes ht⟩
    | delete hd =>
      subst hd
      exact ⟨h.delete, fun _ => .put (by simp)⟩
  start {i w} h _ := ⟨h, wp_main i, fun j _ => .refl j w⟩
  call h hallowed he _ := call_proved h hallowed he
  finish {i a w} h hpost := by
    cases i with
    | manager n => exact ⟨h, fun j _ => .refl j w⟩
    | server agent => exact ⟨(h.setServer hpost).1, fun j _ => (h.setServer hpost).2 j⟩
    | client agent => exact ⟨(h.setClient hpost).1, fun j _ => (h.setClient hpost).2 j⟩

theorem not_stored_initial (certs : Certs) : ¬ Stored (initial now) certs := by
  rintro ⟨n, hn⟩
  cases n with
  | zero => cases hn
  | succ n => cases hn

theorem certInv_initial : CertInv cal deletable (initial now) where
  issued certs hs := absurd hs (not_stored_initial certs)
  known certs hs := absurd hs (not_stored_initial certs)
  unique certs _ hs := absurd hs (not_stored_initial certs)
  kept _ _ h := nomatch h
  server _ _ h := nomatch h
  client _ _ h := nomatch h
  once _ := steps_new _

theorem certInv_reachable (h : Reached cal deletable now s) : CertInv cal deletable s.world :=
  (proved.reachable certInv_initial h).1

/-- The credentials trust `ca` alone. It lasts ten years from `caMade`, their certificate
from `made`: the clock as it was read before the two keys were generated. -/
structure MadeAt (cal : Calendar) (w : World) (creds : Credentials) (ca : Certificate)
    (caMade made : Time) : Prop where
  pool : creds.pool = [ca]
  caRead : ReadBefore w.keys ca.publicKey caMade
  read : ReadBefore w.keys creds.cert.publicKey made
  caFirst : caMade ≤ made
  past : made ≤ w.now
  caExpires : ca.notAfter = (cal.addTenYears caMade).truncate
  expires : creds.cert.notAfter = (cal.addTenYears made).truncate

theorem IssuedFrom.madeAt {certs : Certs} {ca cert : Certificate} {caMade made : Time}
    (h : IssuedFrom cal w.keys w.now certs ca cert caMade made) :
    MadeAt cal w ⟨cert, cert.publicKey, [ca]⟩ ca caMade made :=
  ⟨rfl, h.caRead, h.read, h.caFirst, h.past, h.caExpires, h.expires⟩

/-- What an agent uses was issued as a whole. -/
theorem CertInv.issuedOf (h : CertInv cal deletable w) {creds : Credentials}
    (hf : FromStorage w agent creds) : ∃ certs ca cert caMade made,
      (w.storage agent).secret = some certs ∧ Stored w certs ∧
        IssuedFrom cal w.keys w.now certs ca cert caMade made ∧
        creds = ⟨cert, cert.publicKey, [ca]⟩ := by
  obtain ⟨certs, hcerts, hcreds⟩ := hf
  have hs := h.kept agent certs hcerts
  obtain ⟨ca, cert, caMade, made, hissued⟩ := h.issued certs hs
  rw [hissued.credentials] at hcreds
  cases hcreds
  exact ⟨certs, ca, cert, caMade, made, hcerts, hs, hissued, rfl⟩

/-- From any state on, a client and a server with issued credentials accept each other if
the Secrets are the same, until its CA or its certificate expires. -/
theorem CertInv.handshake_iff (h : CertInv cal deletable w) {certs certs' : Certs}
    {ca cert ca' cert' : Certificate} {caMade made caMade' made' : Time} (hs : Stored w certs)
    (hs' : Stored w certs') (hi : IssuedFrom cal w.keys w.now certs ca cert caMade made)
    (hi' : IssuedFrom cal w.keys w.now certs' ca' cert' caMade' made') {t : Time} (ht : w.now ≤ t) :
    Handshake ⟨cert, cert.publicKey, [ca]⟩ ⟨cert', cert'.publicKey, [ca']⟩ t ↔
      certs = certs' ∧ t ≤ min ca.notAfter cert.notAfter := by
  rw [hi.handshake_iff hi'.toIssued, hi.valid_iff (Int.le_trans hi.begun ht)]
  constructor
  · rintro ⟨hkey, hle, -⟩
    refine ⟨h.unique certs certs' hs hs' ?_, hle⟩
    rw [hi.certs_eq, hi'.certs_eq]
    exact congrArg some hkey
  · rintro ⟨rfl, hle⟩
    obtain ⟨rfl, rfl⟩ := hi.same hi'.toIssued
    exact ⟨rfl, hle, (hi.valid_iff (Int.le_trans hi.begun ht)).mpr hle⟩

/-- Without deletions there is only one Secret. -/
theorem CertInv.one (h : CertInv cal false w) {certs certs' : Certs} (hs : Stored w certs)
    (hs' : Stored w certs') : certs = certs' := by
  obtain ⟨n, hn⟩ := hs
  obtain ⟨m, hm⟩ := hs'
  have hord := (h.once rfl).ordered (fun _ _ h => h)
    fun _ _ _ h h' certs hc => h' certs (h certs hc)
  rcases Nat.le_total n m with hle | hle
  · exact (Option.some.inj (hord n m _ _ hle hn hm certs rfl)).symm
  · exact Option.some.inj (hord m n _ _ hle hm hn certs' rfl)

/-- While the Secret is never deleted, whatever managers and agents do at the same time:
all agents that have credentials trust one CA and accept each other, in both directions,
until the first of the CA and the certificate expires, and none of them afterwards. Each
lasts ten years from the clock as it was read for it. -/
theorem agents_authenticate (h : Reached cal false now s) :
    ∃ ca caMade made, ∀ a b client server,
      s.world.client a = some client → s.world.server b = some server →
      MadeAt cal s.world client ca caMade made ∧ MadeAt cal s.world server ca caMade made ∧
      ∀ t, s.world.now ≤ t → (Handshake client server t ↔
        t ≤ min (cal.addTenYears caMade).truncate (cal.addTenYears made).truncate) := by
  have hinv := certInv_reachable h
  by_cases hex : ∃ certs, Stored s.world certs
  · obtain ⟨certs, hs⟩ := hex
    obtain ⟨ca, cert, caMade, made, hi⟩ := hinv.issued certs hs
    -- every storage keeps this Secret
    have hone : ∀ {agent creds}, FromStorage s.world agent creds →
        creds = ⟨cert, cert.publicKey, [ca]⟩ := by
      intro agent creds hf
      obtain ⟨certs', ca', cert', _, _, -, hs', hi', rfl⟩ := hinv.issuedOf hf
      obtain rfl := hinv.one hs hs'
      obtain ⟨rfl, rfl⟩ := hi.same hi'.toIssued
      rfl
    refine ⟨ca, caMade, made, fun a b client server hclient hserver => ?_⟩
    obtain rfl := hone (hinv.client a client hclient)
    obtain rfl := hone (hinv.server b server hserver)
    refine ⟨hi.madeAt, hi.madeAt, fun t ht => ?_⟩
    rw [hinv.handshake_iff hs hs hi hi ht, hi.caExpires, hi.expires]
    exact and_iff_right rfl
  · refine ⟨selfSign (createCertTemplate cal true now now) 0, now, now, ?_⟩
    intro a b client server hclient
    obtain ⟨certs, hcerts, -⟩ := hinv.client a client hclient
    exact absurd ⟨certs, hinv.kept a certs hcerts⟩ hex

theorem agents_authenticate_two :
    ∃ s client server, Reached utc false 0 s ∧ s.world.client 1 = some client ∧
      s.world.server 2 = some server ∧ ∃ ca caMade made, ∀ a b client server,
        s.world.client a = some client → s.world.server b = some server →
        MadeAt utc s.world client ca caMade made ∧ MadeAt utc s.world server ca caMade made ∧
        ∀ t, s.world.now ≤ t → (Handshake client server t ↔
          t ≤ min (utc.addTenYears caMade).truncate (utc.addTenYears made).truncate) := by
  have hcreds := (issued_createdAt utc 0 0).credentials
  have h₁ : Reached utc false 0 _ := Reached.sync (n := 0) .refl rfl rfl
  have h₂ := h₁.prepareClient 1 rfl rfl hcreds rfl rfl
  have h₃ := h₂.prepareServer 2 rfl rfl hcreds rfl rfl
  exact ⟨_, _, _, h₃, rfl, rfl, agents_authenticate h₃⟩

/-- With deletions: a client and a server accept each other from now on exactly as long
as their storages keep the same Secret, and neither its CA nor its certificate has expired.
The two sides of one agent have one storage. -/
theorem agents_share_ca (h : Reached cal deletable now s) {a b : Nat}
    {client server : Credentials} (hclient : s.world.client a = some client)
    (hserver : s.world.server b = some server) :
    ∃ certs certs' ca caMade made, (s.world.storage a).secret = some certs ∧
      (s.world.storage b).secret = some certs' ∧ MadeAt cal s.world client ca caMade made ∧
      ∀ t, s.world.now ≤ t → (Handshake client server t ↔
        certs = certs' ∧ t ≤ min ca.notAfter client.cert.notAfter) := by
  have hinv := certInv_reachable h
  obtain ⟨certs, ca, cert, caMade, made, hcerts, hs, hi, rfl⟩ :=
    hinv.issuedOf (hinv.client a client hclient)
  obtain ⟨certs', ca', cert', caMade', made', hcerts', hs', hi', rfl⟩ :=
    hinv.issuedOf (hinv.server b server hserver)
  exact ⟨certs, certs', ca, caMade, made, hcerts, hcerts', hi.madeAt,
    fun t ht => hinv.handshake_iff hs hs' hi hi' ht⟩

/-- The Secret was deleted between the reads of two agents: they never accept each other. -/
theorem agents_share_ca_deleted :
    ∃ s client server, Reached utc true 0 s ∧ s.world.client 1 = some client ∧
      s.world.server 2 = some server ∧ ∀ t, s.world.now ≤ t → ¬ Handshake client server t := by
  have hcreds := (issued_createdAt utc 0 0).credentials
  have hcreds' := (issued_createdAt utc 0 2).credentials
  have h₁ : Reached utc true 0 _ := Reached.sync (n := 0) .refl rfl rfl
  have h₂ := h₁.prepareClient 1 rfl rfl hcreds rfl rfl
  have h₃ : Reached utc true 0 _ := h₂.tail ⟨_, .env (.delete rfl), trivial⟩
  have h₄ := h₃.sync (n := 0) rfl rfl
  have h₅ := h₄.prepareServer 2 rfl rfl hcreds' rfl rfl
  refine ⟨_, _, _, h₅, rfl, rfl, fun t ht hs => ?_⟩
  obtain ⟨certs, certs', ca, caMade, made, hcerts, hcerts', -, hiff⟩ :=
    agents_share_ca (a := 1) (b := 2) h₅ rfl rfl
  obtain ⟨rfl, -⟩ := (hiff t ht).mp hs
  have hold : some (createdAt utc 0 0) = some certs := hcerts
  have hnew : some (createdAt utc 0 2) = some certs := hcerts'
  exact absurd (hold.trans hnew.symm) (by decide)

end Interleavings

end SelfNodeRemediation.Certificates
