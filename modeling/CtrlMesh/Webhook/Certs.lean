import CtrlMesh.Lib.Assoc
import CtrlMesh.Lib.Shared

/-!
# The certificate of the webhook server

Every replica of the manager serves the webhooks with the certificate in one Secret, which the first
to find it missing or invalid writes, and enters its CA in the two webhook configurations
(`pkg/webhook/util/writer`, `pkg/webhook/util/controller`). The replicas run at the same time and
share only the API server: each of their calls is one step, which may fail, also after it has
written. A resource version is a number, 0 for the empty text. What the crypto libraries compute is
a parameter.
-/

namespace CtrlMesh.Webhook.Certs

open Lib Lib.Shared

/-- A byte string. -/
abbrev Bytes := List UInt8

/-- `generator.Artifacts`. -/
structure Artifacts where
  key : Option Bytes
  cert : Option Bytes
  caKey : Option Bytes
  caCert : Option Bytes
  resourceVersion : Nat
  deriving DecidableEq

/-- A signing key and its certificate. -/
structure CA where
  key : Bytes
  cert : Bytes
  deriving DecidableEq

/-- What the crypto libraries compute. -/
structure Crypto where
  /-- The checks of `validCert` on a certificate, its key and a CA certificate, for six months. -/
  verified : Bytes → Bytes → Bytes → String → Bool
  /-- The key and the certificate that `validCACert` of the generator parses from a CA it takes, as
  `EncodePrivateKeyPEM` and `EncodeCertPEM` write them. -/
  parsed : CA → Option CA
  /-- What was written is parsed as what it is. -/
  parsed_parsed : ∀ set signing, parsed set = some signing → parsed signing = some signing
  /-- What `NewPrivateKey` and `NewSelfSignedCACert` may make, in the same encoding. -/
  newCA : CA → Prop
  /-- What `NewSignedCert` may make for a common name: a key and a certificate. -/
  signs : CA → String → Bytes → Bytes → Prop

/-- The settings of the webhook controller. -/
structure Env extends Crypto where
  host : String
  port : Nat
  ns : String
  serviceName : String

/-- `generator.ServiceToCommonName`. -/
def serviceToCommonName (serviceNamespace serviceName : String) : String :=
  s!"{serviceName}.{serviceNamespace}.svc"

/-- The name the certificate is for. -/
def Env.dnsName (env : Env) : String :=
  if env.host ≠ "" then env.host else serviceToCommonName env.ns env.serviceName

/-- `SelfSignedCertGenerator.Generate` may return the artifacts. A CA that was set comes back in the
encoding of the generator, which need not be that of the texts it was set with. -/
def Crypto.Generates (crypto : Crypto) (ca : Option CA) (commonName : String)
    (certs : Artifacts) : Prop :=
  ∃ signing key cert, (ca.bind crypto.parsed = some signing ∨
      ca.bind crypto.parsed = none ∧ crypto.newCA signing) ∧
    crypto.signs signing commonName key cert ∧
    certs = ⟨some key, some cert, some signing.key, some signing.cert, 0⟩

/-- A certificate that was just made passes the check. -/
def Env.Sound (env : Env) : Prop :=
  ∀ signing key cert, (∃ set, env.parsed set = some signing) ∨ env.newCA signing →
    env.signs signing env.dnsName key cert →
    env.verified cert key signing.cert env.dnsName = true

/-- `validCert`. -/
def validCert (crypto : Crypto) (certs : Artifacts) (dnsName : String) : Bool :=
  match certs.cert, certs.key, certs.caCert with
  | some cert, some key, some caCert => crypto.verified cert key caCert dnsName
  | _, _, _ => false

/-- A stored object with its version. -/
structure Object (α : Type) where
  body : α
  resourceVersion : Nat
  deriving DecidableEq

/-- The data of a Secret. -/
abbrev SecretData := Option (AList fun _ : String => Option Bytes)

/-- `ServiceReference` of a webhook. -/
structure ServiceReference where
  ns : String
  name : String
  path : Option String
  deriving DecidableEq

/-- `WebhookClientConfig`. -/
structure ClientConfig where
  caBundle : Option Bytes
  service : Option ServiceReference
  url : Option String
  deriving DecidableEq

/-- The two webhook configurations. -/
inductive Kind where
  | mutating
  | validating
  deriving DecidableEq

/-- The objects the replicas share. -/
inductive Slot where
  | secret
  | config (kind : Kind)
  deriving DecidableEq

/-- What a slot stores. -/
abbrev Slot.Body : Slot → Type
  | .secret => SecretData
  | .config _ => List ClientConfig

/-- What the API server stores; `next` is a resource version that was not used yet. -/
structure Store where
  cell : (slot : Slot) → Option (Object slot.Body)
  next : Nat
  positive : 0 < next
  ordered : ∀ slot stored, cell slot = some stored →
    0 < stored.resourceVersion ∧ stored.resourceVersion < next

/-- A call for a slot. -/
inductive Op (α : Type) where
  | get
  | create (object : Object α)
  | update (object : Object α)

/-- `metav1.StatusReason`. -/
inductive Reason where
  | notFound
  | alreadyExists
  | conflict
  | other
  deriving DecidableEq

/-- An error of the API server. -/
structure ApiError where
  reason : Reason
  text : String
  deriving DecidableEq

/-- What a replica asks for. -/
inductive Request where
  | api (slot : Slot) (op : Op slot.Body)
  | generate (ca : Option CA) (commonName : String)
  | writeCertsToDir (certs : Artifacts)

/-- What it is answered. -/
abbrev Response : Request → Type
  | .api slot _ => Except ApiError (Object slot.Body)
  | .generate _ _ => Except String Artifacts
  | .writeCertsToDir _ => Except String Unit

/-- A write takes the next version. -/
theorem Store.ordered_update (s : Store) {slot : Slot} (body : slot.Body) (other : Slot)
    (stored : Object other.Body)
    (here : Function.update s.cell slot (some ⟨body, s.next⟩) other = some stored) :
    0 < stored.resourceVersion ∧ stored.resourceVersion < s.next + 1 := by
  by_cases same : other = slot
  · subst same
    rw [Function.update_self] at here
    cases here
    exact ⟨s.positive, Nat.lt_succ_self _⟩
  · rw [Function.update_of_ne same] at here
    have bounds := s.ordered other stored here
    exact ⟨bounds.1, Nat.lt_succ_of_lt bounds.2⟩

/-- An object written with the next version. -/
def Store.put (s : Store) (slot : Slot) (body : slot.Body) : Store :=
  ⟨Function.update s.cell slot (some ⟨body, s.next⟩), s.next + 1, Nat.succ_pos _,
    s.ordered_update body⟩

/-- What the API server does: an update must name the version it replaces, or none. -/
def Store.apply (s : Store) (slot : Slot) :
    Op slot.Body → Except Reason (Object slot.Body) × Store
  | .get =>
    match s.cell slot with
    | none => (.error .notFound, s)
    | some stored => (.ok stored, s)
  | .create object =>
    match s.cell slot with
    | none => (.ok ⟨object.body, s.next⟩, s.put slot object.body)
    | some _ => (.error .alreadyExists, s)
  | .update object =>
    match s.cell slot with
    | none => (.error .notFound, s)
    | some stored =>
      if object.resourceVersion = 0 ∨ object.resourceVersion = stored.resourceVersion then
        (.ok ⟨object.body, s.next⟩, s.put slot object.body)
      else (.error .conflict, s)

/-- A call and its answer. A call to the API server may fail without effect, and its answer may get
lost. -/
def Serves (crypto : Crypto) (s : Store) : (req : Request) → Response req → Store → Prop
  | .api slot op => fun resp t => ∃ text,
      (resp = (s.apply slot op).1.mapError (⟨·, text⟩) ∧ t = (s.apply slot op).2) ∨
      (resp = .error ⟨.other, text⟩ ∧ (t = s ∨ t = (s.apply slot op).2))
  | .generate ca commonName => fun resp t => t = s ∧
      ∀ certs, resp = .ok certs → crypto.Generates ca commonName certs
  | .writeCertsToDir _ => fun _ t => t = s

/-- A call to the API server. -/
def api (slot : Slot) (op : Op slot.Body) : Prog Response (Except ApiError (Object slot.Body)) :=
  ask (Request.api slot op)

/-- `Generate`. -/
def generate (ca : Option CA) (commonName : String) : Prog Response (Except String Artifacts) :=
  ask (Request.generate ca commonName)

/-- `WriteCertsToDir`. -/
def writeCertsToDir (certs : Artifacts) : Prog Response (Except String Unit) :=
  ask (Request.writeCertsToDir certs)

/-- `CAKeyName`. -/
def caKeyName : String := "ca-key.pem"

/-- `CACertName`. -/
def caCertName : String := "ca-cert.pem"

/-- `ServerKeyName`. -/
def serverKeyName : String := "key.pem"

/-- `ServerKeyName2`. -/
def serverKeyName2 : String := "tls.key"

/-- `ServerCertName`. -/
def serverCertName : String := "cert.pem"

/-- `ServerCertName2`. -/
def serverCertName2 : String := "tls.crt"

/-- `secretToCerts`. -/
def secretToCerts (secret : Object SecretData) : Artifacts :=
  match secret.body with
  | none => ⟨none, none, none, none, secret.resourceVersion⟩
  | some data =>
    { caKey := (data.lookup caKeyName).join
      caCert := (data.lookup caCertName).join
      cert := (data.lookup serverCertName).join
      key := (data.lookup serverKeyName).join
      resourceVersion := secret.resourceVersion }

/-- `certsToSecret`. -/
def certsToSecret (certs : Artifacts) : Object SecretData :=
  ⟨some ((((((AList.singleton caKeyName certs.caKey).insert caCertName certs.caCert).insert
    serverKeyName certs.key).insert serverKeyName2 certs.key).insert
    serverCertName certs.cert).insert serverCertName2 certs.cert), 0⟩

/-- The errors of a certificate writer, by their types. -/
inductive CertError where
  | notFound (text : String)
  | alreadyExists (text : String)
  | other (text : String)
  deriving DecidableEq

/-- The text of an error. -/
def CertError.text : CertError → String
  | .notFound text => text
  | .alreadyExists text => text
  | .other text => text

/-- `certReadWriter`, with the state of the writer passed on. -/
structure CertReadWriter (ω : Type) where
  read : ω → Prog Response (Except CertError Artifacts × ω)
  write : ω → Prog Response (Except CertError Artifacts × ω)
  overwrite : Nat → ω → Prog Response (Except CertError Artifacts × ω)

/-- `createIfNotExists`. -/
def createIfNotExists {ω : Type} (ch : CertReadWriter ω) (w : ω) :
    Prog Response (Except CertError Artifacts × Bool × ω) := do
  let (certs, w) ← ch.read w
  match certs with
  | .error (.notFound _) => do
    let (certs, w) ← ch.write w
    match certs with
    | .error (.alreadyExists _) => do
      let (certs, w) ← ch.read w
      pure (certs, true, w)
    | certs => pure (certs, true, w)
  | certs => pure (certs, false, w)

/-- `handleCommon`: the certificate, and whether it changed. -/
def handleCommon {ω : Type} (crypto : Crypto) (dnsName : String) (ch : CertReadWriter ω) (w : ω) :
    Prog Response (Except CertError (Artifacts × Bool)) :=
  if dnsName = "" then pure (.error (.other "dnsName should not be empty"))
  else do
    let (certs, changed, w) ← createIfNotExists ch w
    match certs with
    | .error error => pure (.error error)
    | .ok certs =>
      if validCert crypto certs dnsName then pure (.ok (certs, changed))
      else do
        let (certs, _) ← ch.overwrite certs.resourceVersion w
        pure (certs.map fun certs => (certs, true))

/-- The CA of artifacts that have one. -/
def Artifacts.ca (certs : Artifacts) : Option CA :=
  match certs.caKey, certs.caCert with
  | some key, some cert => some ⟨key, cert⟩
  | _, _ => none

/-- `secretCertWriter`, with the CA of its generator for a state. -/
def secretCertWriter (dnsName : String) : CertReadWriter (Option CA) where
  read ca := do
    match ← api .secret .get with
    | .error error =>
      if error.reason = .notFound then pure (.error (.notFound error.text), ca)
      else pure (.error (.other error.text), ca)
    | .ok secret => pure (.ok (secretToCerts secret), (secretToCerts secret).ca <|> ca)
  write ca := do
    match ← generate ca dnsName with
    | .error text => pure (.error (.other text), ca)
    | .ok certs => do
      match ← api .secret (.create (certsToSecret certs)) with
      | .error error =>
        if error.reason = .alreadyExists then pure (.error (.alreadyExists error.text), ca)
        else pure (.error (.other error.text), ca)
      | .ok _ => pure (.ok certs, ca)
  overwrite resourceVersion ca := do
    match ← generate ca dnsName with
    | .error text => pure (.error (.other text), ca)
    | .ok certs => do
      match ← api .secret (.update { certsToSecret certs with resourceVersion }) with
      | .error error => pure (.error (.other error.text), ca)
      | .ok _ => pure (.ok certs, ca)

/-- `secretCertWriter.EnsureCert`, of a writer that was just made. -/
def ensureCert (env : Env) : Prog Response (Except CertError (Artifacts × Bool)) :=
  handleCommon env.toCrypto env.dnsName (secretCertWriter env.dnsName) none

/-- `convertClientConfig`, which panics without a path. -/
def convertClientConfig (env : Env) (clientConfig : ClientConfig) : Option ClientConfig := do
  let service ← clientConfig.service
  let path ← service.path
  pure { clientConfig with url := some s!"https://{env.host}:{env.port}{path}", service := none }

/-- The body of the loops of `ensureConfigurations`. -/
def ensureClientConfig (env : Env) (caBundle : Option Bytes) (clientConfig : ClientConfig) :
    Option ClientConfig :=
  match clientConfig.service with
  | none => some { clientConfig with caBundle }
  | some service =>
    let clientConfig := { clientConfig with
      caBundle
      service := some { service with ns := env.ns, name := env.serviceName } }
    if env.host ≠ "" then convertClientConfig env clientConfig else some clientConfig

/-- The loops of `ensureConfigurations`. -/
def ensured (env : Env) (caBundle : Option Bytes) (webhooks : List ClientConfig) :
    Option (List ClientConfig) :=
  webhooks.mapM (ensureClientConfig env caBundle)

/-- The type of a configuration. -/
def Kind.typeName : Kind → String
  | .mutating => "MutatingWebhookConfiguration"
  | .validating => "ValidatingWebhookConfiguration"

/-- The name of a configuration. -/
def Kind.configurationName : Kind → String
  | .mutating => "ctrlmesh-mutating"
  | .validating => "ctrlmesh-validating"

/-- How `Sync` can fail. -/
inductive SyncError where
  | message (text : String)
  | panic
  deriving DecidableEq

/-- `Get` of a configuration. -/
def getConfiguration (kind : Kind) :
    Prog Response (Except SyncError (Object (List ClientConfig))) := do
  match ← api (.config kind) .get with
  | .error _ => pure (.error (.message s!"not found {kind.typeName} {kind.configurationName}"))
  | .ok config => pure (.ok config)

/-- `Update` of a configuration that was changed. -/
def updateConfiguration (kind : Kind) (old : Object (List ClientConfig))
    (webhooks : List ClientConfig) : Prog Response (Except SyncError Unit) :=
  if webhooks = old.body then pure (.ok ())
  else do
    match ← api (.config kind) (.update { old with body := webhooks }) with
    | .error error =>
      pure (.error (.message s!"failed to update {kind.configurationName}: {error.text}"))
    | .ok _ => pure (.ok ())

/-- `ensureConfigurations`. -/
def ensureConfigurations (env : Env) (caBundle : Option Bytes) :
    Prog Response (Except SyncError Unit) := do
  match ← getConfiguration .mutating with
  | .error error => pure (.error error)
  | .ok mutating =>
    match ← getConfiguration .validating with
    | .error error => pure (.error error)
    | .ok validating =>
      match ensured env caBundle mutating.body, ensured env caBundle validating.body with
      | some mutating', some validating' =>
        match ← updateConfiguration .mutating mutating mutating' with
        | .error error => pure (.error error)
        | .ok () => updateConfiguration .validating validating validating'
      | _, _ => pure (.error .panic)

/-- `sync` of the webhook controller, with the certificates in the Secret. -/
def sync (env : Env) : Prog Response (Except SyncError Unit) := do
  match ← ensureCert env with
  | .error error => pure (.error (.message s!"failed to ensure certs: {error.text}"))
  | .ok (certs, _) =>
    match ← writeCertsToDir certs with
    | .error text => pure (.error (.message s!"failed to write certs to dir: {text}"))
    | .ok () =>
      match ← ensureConfigurations env certs.caCert with
      | .error (.message text) =>
        pure (.error (.message s!"failed to ensure configuration: {text}"))
      | .error .panic => pure (.error .panic)
      | .ok () => pure (.ok ())

end CtrlMesh.Webhook.Certs
