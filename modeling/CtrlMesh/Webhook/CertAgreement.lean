import CtrlMesh.Webhook.Certs

/-!
# The replicas agree on the certificate

A valid certificate is never replaced: an update names the version it replaces, and a replica that
has seen the present version has seen that it is valid. So all replicas that get a certificate get
the same, whatever the order of their calls; and the webhook configurations with its CA are written
once and left alone from then on. While the certificate is renewed its CA stays, though its texts
may change to the encoding of the generator.
-/

namespace CtrlMesh.Webhook.Certs

open Lib Lib.Shared

variable {env : Env} {ca : Option CA} {certs : Artifacts} {s t u : Store} {slot : Slot}

/-- A CA that is set and valid is used again. -/
theorem Crypto.Generates.ca_eq {crypto : Crypto} {commonName : String} {set signing : CA}
    (made : crypto.Generates (some set) commonName certs)
    (valid : crypto.parsed set = some signing) : certs.ca = some signing := by
  obtain ⟨signing', key, cert, same | ⟨invalid, -⟩, -, rfl⟩ := made
  · rw [Option.bind_some, valid] at same
    cases same
    rfl
  · rw [Option.bind_some, valid] at invalid
    cases invalid

/-- What the generator makes passes the check. -/
theorem Env.Sound.validCert (sound : env.Sound) (made : env.Generates ca env.dnsName certs) :
    validCert env.toCrypto certs env.dnsName = true := by
  obtain ⟨signing, key, cert, origin, signs, rfl⟩ := made
  refine sound signing key cert (origin.imp (fun parsed => ?_) And.right) signs
  obtain ⟨set, -, same⟩ := Option.bind_eq_some_iff.mp parsed
  exact ⟨set, same⟩

/-- A Secret has the artifacts it was made of. -/
theorem secretToCerts_certsToSecret (certs : Artifacts) (version : Nat) :
    secretToCerts ⟨(certsToSecret certs).body, version⟩ =
      { certs with resourceVersion := version } := by
  simp [secretToCerts, certsToSecret, caKeyName, caCertName, serverKeyName, serverKeyName2,
    serverCertName, serverCertName2, AList.lookup]

/-- The data of a Secret hold a certificate that passes the check. -/
def Good (env : Env) (data : SecretData) : Prop :=
  validCert env.toCrypto (secretToCerts ⟨data, 0⟩) env.dnsName = true

/-- The version of a Secret is passed on and not looked at. -/
theorem secretToCerts_eq (secret : Object SecretData) : secretToCerts secret =
    { secretToCerts ⟨secret.body, 0⟩ with resourceVersion := secret.resourceVersion } := by
  obtain ⟨data, version⟩ := secret
  cases data with
  | none => rfl
  | some data => rfl

/-- The check reads the data of the Secret. -/
theorem validCert_secretToCerts {secret : Object SecretData} :
    validCert env.toCrypto (secretToCerts secret) env.dnsName = true ↔ Good env secret.body := by
  rw [secretToCerts_eq]
  exact Iff.rfl

/-- The same texts, of whatever version. -/
def Artifacts.pems (certs : Artifacts) : Artifacts := { certs with resourceVersion := 0 }

/-- Nobody replaces a certificate that passes the check, nor a configuration that has what its CA
asks for. -/
def Fixed (env : Env) (s : Store) : (slot : Slot) → slot.Body → Prop
  | .secret, data => Good env data
  | .config _, webhooks => ∃ secret, s.cell .secret = some secret ∧ Good env secret.body ∧
      ensured env (secretToCerts secret).caCert webhooks = some webhooks

/-- The Secret has a CA that the generator takes for the signing one, in the texts it had or in the
encoding of the generator. -/
def Trusts (env : Env) (ca signing : CA) (t : Store) : Prop :=
  ∃ secret ca', t.cell .secret = some secret ∧ (secretToCerts secret).ca = some ca' ∧
    (ca' = ca ∨ ca' = signing) ∧ env.parsed ca' = some signing

/-- What every step of a replica keeps. -/
structure Keeps (env : Env) (s t : Store) : Prop where
  next : s.next ≤ t.next
  cells : ∀ slot stored, s.cell slot = some stored → ∃ stored', t.cell slot = some stored' ∧
    (stored' = stored ∨ ¬Fixed env s slot stored.body ∧ s.next ≤ stored'.resourceVersion)
  trust : ∀ secret ca signing, s.cell .secret = some secret →
    (secretToCerts secret).ca = some ca → env.parsed ca = some signing → Trusts env ca signing t

/-- Nothing has happened. -/
theorem Keeps.refl (s : Store) : Keeps env s s :=
  ⟨Nat.le_refl _, fun _ stored here => ⟨stored, here, .inl rfl⟩,
    fun secret ca _ here has valid => ⟨secret, ca, here, has, .inl rfl, valid⟩⟩

/-- What nobody replaces is still there. -/
theorem Keeps.stays (keeps : Keeps env s t) {stored : Object slot.Body}
    (here : s.cell slot = some stored) (fixed : Fixed env s slot stored.body) :
    t.cell slot = some stored := by
  obtain ⟨stored', there, same | ⟨other, -⟩⟩ := keeps.cells slot stored here
  · rw [there, same]
  · exact absurd fixed other

variable {body : slot.Body} {secret : Object SecretData}

/-- What nobody replaces stays such. -/
theorem Keeps.fixed (keeps : Keeps env s t) (fixed : Fixed env s slot body) :
    Fixed env t slot body := by
  cases slot with
  | secret => exact fixed
  | config kind =>
    obtain ⟨secret, here, good, same⟩ := fixed
    have stays : t.cell .secret = some secret := keeps.stays here good
    exact ⟨secret, stays, good, same⟩

/-- One change after another. -/
theorem Keeps.trans (first : Keeps env s t) (second : Keeps env t u) : Keeps env s u := by
  have low := first.next
  refine ⟨Nat.le_trans low second.next, fun slot stored here => ?_, ?_⟩
  · obtain ⟨stored', there, same⟩ := first.cells slot stored here
    obtain ⟨stored'', later, same'⟩ := second.cells slot stored' there
    refine ⟨stored'', later, ?_⟩
    obtain rfl | ⟨free, fresh⟩ := same
    · exact same'.imp_right fun new =>
        ⟨fun fixed => new.1 (first.fixed fixed), Nat.le_trans low new.2⟩
    · obtain rfl | ⟨-, fresh'⟩ := same'
      · exact .inr ⟨free, fresh⟩
      · exact .inr ⟨free, Nat.le_trans low fresh'⟩
  · intro secret ca signing here has valid
    obtain ⟨secret', ca', there, has', same, valid'⟩ := first.trust secret ca signing here has valid
    obtain ⟨secret'', ca'', later, has'', same', valid''⟩ :=
      second.trust secret' ca' signing there has' valid'
    refine ⟨secret'', ca'', later, has'', ?_, valid''⟩
    rcases same' with rfl | rfl
    · exact same
    · exact .inr rfl

/-- The slot after a write. -/
theorem Store.put_here (s : Store) (slot : Slot) (body : slot.Body) :
    (s.put slot body).cell slot = some ⟨body, s.next⟩ := Function.update_self slot _ _

/-- A write leaves the other slots alone. -/
theorem Store.put_elsewhere (s : Store) {slot other : Slot} (body : slot.Body)
    (differ : other ≠ slot) : (s.put slot body).cell other = s.cell other :=
  Function.update_of_ne differ _ _

/-- Replacing an object that is not fixed, and with it no valid CA. -/
theorem keeps_put (free : ∀ stored, s.cell slot = some stored → ¬Fixed env s slot stored.body)
    (trust : slot = .secret → ∀ secret ca signing, s.cell .secret = some secret →
      (secretToCerts secret).ca = some ca → env.parsed ca = some signing →
      Trusts env ca signing (s.put slot body)) : Keeps env s (s.put slot body) := by
  refine ⟨Nat.le_succ _, fun other stored here => ?_, fun secret ca signing here has valid => ?_⟩
  · by_cases same : other = slot
    · subst same
      exact ⟨_, s.put_here other body, .inr ⟨free stored here, Nat.le_refl _⟩⟩
    · rw [s.put_elsewhere body same]
      exact ⟨stored, here, .inl rfl⟩
  · by_cases same : slot = .secret
    · exact trust same secret ca signing here has valid
    · refine ⟨secret, ca, ?_, has, .inl rfl, valid⟩
      rw [s.put_elsewhere body (Ne.symm same)]
      exact here

/-- Safe among the replicas. -/
abbrev Safely (env : Env) {α : Type} (post : α → Store → Prop) (p : Prog Response α)
    (s : Store) : Prop :=
  Safe (Serves env.toCrypto) (Keeps env) post p s

/-- Nothing is said of an error. -/
def OnOk {ε α : Type} (post : α → Store → Prop) : Except ε α → Store → Prop
  | .ok a => post a
  | .error _ => fun _ => True

/-- A get changes nothing and returns what is stored. -/
theorem serves_get {resp : Response (.api slot .get)}
    (served : Serves env.toCrypto s (.api slot .get) resp t) :
    t = s ∧ OnOk (fun stored t => t.cell slot = some stored) resp t := by
  have outcome : (s.apply slot .get).2 = s ∧
      ∀ stored, (s.apply slot .get).1 = .ok stored → s.cell slot = some stored := by
    cases found : s.cell slot with
    | none => simp [Store.apply, found]
    | some stored => simp [Store.apply, found]
  obtain ⟨text, ⟨rfl, rfl⟩ | ⟨rfl, unchanged⟩⟩ := served
  · refine ⟨outcome.1, ?_⟩
    rw [outcome.1]
    cases answer : (s.apply slot .get).1 with
    | error reason => trivial
    | ok stored => exact outcome.2 stored answer
  · rw [outcome.1, or_self] at unchanged
    exact ⟨unchanged, trivial⟩

/-- What an operation writes, it writes whatever becomes of the answer. -/
theorem serves_write {op : Op slot.Body} {resp : Response (.api slot op)} {p : Prop} {new : Store}
    (outcome : (∃ stored, s.apply slot op = (.ok stored, new)) ∧ p ∨
      ∃ reason, s.apply slot op = (.error reason, s))
    (served : Serves env.toCrypto s (.api slot op) resp t) :
    (t = s ∨ p ∧ t = new) ∧ OnOk (fun _ t => p ∧ t = new) resp t := by
  obtain ⟨text, ⟨rfl, rfl⟩ | ⟨rfl, unchanged⟩⟩ := served
  · obtain ⟨⟨stored, ok⟩, holds⟩ | ⟨reason, failed⟩ := outcome
    · rw [ok]
      exact ⟨.inr ⟨holds, rfl⟩, holds, rfl⟩
    · rw [failed]
      exact ⟨.inl rfl, trivial⟩
  · refine ⟨?_, trivial⟩
    obtain rfl | rfl := unchanged
    · exact .inl rfl
    · obtain ⟨⟨stored, ok⟩, holds⟩ | ⟨reason, failed⟩ := outcome
      · rw [ok]
        exact .inr ⟨holds, rfl⟩
      · rw [failed]
        exact .inl rfl

/-- A create fills an empty slot, or fails without effect. -/
theorem apply_create {object : Object slot.Body} :
    (∃ stored, s.apply slot (.create object) = (.ok stored, s.put slot object.body)) ∧
        s.cell slot = none ∨
      ∃ reason, s.apply slot (.create object) = (.error reason, s) := by
  cases found : s.cell slot with
  | none => exact .inl ⟨⟨⟨object.body, s.next⟩, by simp only [Store.apply, found]⟩, rfl⟩
  | some stored => exact .inr ⟨.alreadyExists, by simp only [Store.apply, found]⟩

/-- An update replaces the version it names, or fails without effect. -/
theorem apply_update (object : Object slot.Body) (versioned : object.resourceVersion ≠ 0) :
    (∃ stored, s.apply slot (.update object) = (.ok stored, s.put slot object.body)) ∧
        (∃ stored, s.cell slot = some stored ∧
          stored.resourceVersion = object.resourceVersion) ∨
      ∃ reason, s.apply slot (.update object) = (.error reason, s) := by
  cases found : s.cell slot with
  | none => exact .inr ⟨.notFound, by simp only [Store.apply, found]⟩
  | some stored =>
    by_cases same : object.resourceVersion = stored.resourceVersion
    · refine .inl ⟨⟨⟨object.body, s.next⟩, ?_⟩, stored, rfl, same.symm⟩
      simp only [Store.apply, found, if_pos (Or.inr same)]
    · refine .inr ⟨.conflict, ?_⟩
      have neither : ¬(object.resourceVersion = 0 ∨
          object.resourceVersion = stored.resourceVersion) := by simp [versioned, same]
      simp only [Store.apply, found, if_neg neither]

/-- An object that was stored at a moment before, at which something held. -/
def Seen (env : Env) (then' : Store → Prop) (slot : Slot) (stored : Object slot.Body)
    (t : Store) : Prop :=
  ∃ s : Store, then' s ∧ s.cell slot = some stored ∧ Keeps env s t

section Seen

variable {then' : Store → Prop} {stored stored' : Object slot.Body}

/-- What was seen stays seen. -/
theorem Seen.stable (then' : Store → Prop) (slot : Slot) (stored : Object slot.Body) :
    Stable (Keeps env) (Seen env then' slot stored) := by
  rintro s t ⟨start, held, here, before⟩ keeps
  exact ⟨start, held, here, before.trans keeps⟩

/-- A stored object has a version. -/
theorem Seen.versioned (seen : Seen env then' slot stored t) : stored.resourceVersion ≠ 0 := by
  obtain ⟨start, -, here, -⟩ := seen
  have bounds := start.ordered slot stored here
  omega

/-- A version is of one object only. -/
theorem Seen.eq_of_version (seen : Seen env then' slot stored t)
    (there : t.cell slot = some stored')
    (version : stored'.resourceVersion = stored.resourceVersion) : stored' = stored := by
  obtain ⟨start, -, here, keeps⟩ := seen
  have bounds := start.ordered slot stored here
  obtain ⟨stored'', there', same | ⟨-, fresh⟩⟩ := keeps.cells slot stored here
  · rw [there] at there'
    cases there'
    exact same
  · rw [there] at there'
    cases there'
    omega

/-- A get returns an object that is seen. -/
theorem safe_get (stable : Stable (Keeps env) then') (held : then' s) :
    Safely env (OnOk fun stored t => Seen env then' slot stored t) (api slot .get) s := by
  intro t others resp u served
  obtain ⟨rfl, read⟩ := serves_get served
  refine ⟨.refl u, ?_⟩
  cases resp with
  | error error => trivial
  | ok stored => exact ⟨u, stable s u held others, read, .refl u⟩

/-- An update replaces the object that was seen, which is not fixed. -/
theorem safe_update_of_seen (post : Store → Prop) (seen : Seen env then' slot stored s)
    (free : ∀ t : Store, Keeps env s t → t.cell slot = some stored →
      ¬Fixed env t slot stored.body)
    (trust : ∀ t : Store, t.cell slot = some stored → slot = .secret → ∀ secret ca signing,
      t.cell .secret = some secret → (secretToCerts secret).ca = some ca →
      env.parsed ca = some signing → Trusts env ca signing (t.put slot body))
    (written : ∀ t : Store, Keeps env s (t.put slot body) → post (t.put slot body)) :
    Safely env (OnOk fun _ => post) (api slot (.update ⟨body, stored.resourceVersion⟩)) s := by
  intro t others resp u served
  have seen := Seen.stable then' slot stored _ _ seen others
  obtain ⟨changed, done⟩ := serves_write
    (apply_update ⟨body, stored.resourceVersion⟩ seen.versioned) served
  have keeps : Keeps env t u := by
    obtain rfl | ⟨⟨stored', here, version⟩, rfl⟩ := changed
    · exact .refl u
    · have same : stored' = stored := seen.eq_of_version here version
      subst same
      refine keeps_put (fun other there => ?_) (trust t here)
      rw [here] at there
      cases there
      exact free t others here
  refine ⟨keeps, ?_⟩
  cases resp with
  | error error => trivial
  | ok stored =>
    obtain ⟨-, rfl⟩ := done
    exact written t (others.trans keeps)

end Seen

/-- The generator returns what it can generate. -/
theorem safe_generate :
    Safely env (OnOk fun certs _ => env.Generates ca env.dnsName certs)
      (generate ca env.dnsName) s := by
  rintro t others (text | certs) u ⟨rfl, made⟩
  · exact ⟨.refl u, trivial⟩
  · exact ⟨.refl u, made certs rfl⟩

/-- The Secret has the certificate, which passes the check. -/
def Held (env : Env) (certs : Artifacts) (t : Store) : Prop :=
  ∃ secret, t.cell .secret = some secret ∧ Good env secret.body ∧
    (secretToCerts secret).pems = certs.pems

/-- A valid certificate stays. -/
theorem Held.stable (certs : Artifacts) : Stable (Keeps env) (Held env certs) := by
  rintro s t ⟨secret, here, good, same⟩ keeps
  exact ⟨secret, keeps.stays here good, good, same⟩

/-- `Seen`, for the Secret. -/
abbrev SeenSecret (env : Env) (secret : Object SecretData) (t : Store) : Prop :=
  Seen env (fun _ => True) .secret secret t

/-- A valid Secret that was seen is still there. -/
theorem Seen.held (seen : SeenSecret env secret t)
    (valid : validCert env.toCrypto (secretToCerts secret) env.dnsName = true) :
    Held env (secretToCerts secret) t := by
  obtain ⟨start, -, here, keeps⟩ := seen
  have good := validCert_secretToCerts.mp valid
  exact ⟨secret, keeps.stays here good, good, rfl⟩

/-- A certificate that was made and written is the one in the Secret. -/
theorem held_put (sound : env.Sound) (made : env.Generates ca env.dnsName certs) :
    Held env certs (s.put .secret (certsToSecret certs).body) := by
  have eq := secretToCerts_certsToSecret certs
  refine ⟨_, s.put_here .secret _, ?_, ?_⟩
  · have valid := sound.validCert made
    rw [Good, eq]
    exact valid
  · rw [eq]
    rfl

/-- The generator has the CA of the Secret. -/
def Learned (secret : Object SecretData) (ca : Option CA) : Prop :=
  ∀ set, (secretToCerts secret).ca = some set → ca = some set

/-- The certificate is one that was stored. -/
def Read (env : Env) (ca : Option CA) (certs : Artifacts) (t : Store) : Prop :=
  ∃ secret, SeenSecret env secret t ∧ certs = secretToCerts secret ∧ Learned secret ca

/-- A read returns a valid certificate of the Secret, or what it found of one. -/
theorem safe_read :
    Safely env (fun result => OnOk (Read env result.2) result.1)
      ((secretCertWriter env.dnsName).read ca) s := by
  refine (safe_get (fun _ _ _ _ => trivial) trivial).bind ?_
  rintro (error | secret) t seen
  · dsimp only
    split <;> trivial
  · refine ⟨secret, seen, rfl, fun set has => ?_⟩
    rw [has]
    rfl

/-- The certificate passes the check and was just written. -/
def Wrote (env : Env) (certs : Artifacts) (t : Store) : Prop :=
  Held env certs t ∧ validCert env.toCrypto certs env.dnsName = true

section

variable (sound : env.Sound)

include sound

/-- A Secret that is created has the certificate. -/
theorem safe_create (made : env.Generates ca env.dnsName certs) :
    Safely env (OnOk fun _ => Wrote env certs) (api .secret (.create (certsToSecret certs))) s := by
  intro t others resp u served
  obtain ⟨changed, done⟩ := serves_write apply_create served
  have keeps : Keeps env t u := by
    obtain rfl | ⟨free, rfl⟩ := changed
    · exact .refl u
    · refine keeps_put (fun stored here => ?_) fun _ secret _ _ here => ?_
      · rw [free] at here
        cases here
      · rw [free] at here
        cases here
  refine ⟨keeps, ?_⟩
  cases resp with
  | error error => trivial
  | ok stored =>
    obtain ⟨-, rfl⟩ := done
    exact ⟨held_put sound made, sound.validCert made⟩

/-- A write leaves the generated certificate in the Secret. -/
theorem safe_write :
    Safely env (fun result => OnOk (Wrote env) result.1)
      ((secretCertWriter env.dnsName).write ca) s := by
  refine (safe_generate).bind ?_
  rintro (text | certs) t made
  · trivial
  · refine (safe_create sound made).bind ?_
    rintro (error | stored) t wrote
    · dsimp only
      split <;> trivial
    · exact wrote

/-- An overwrite replaces only a Secret that is not valid. -/
theorem safe_overwrite (seen : SeenSecret env secret s) (bad : ¬Good env secret.body)
    (learned : Learned secret ca) :
    Safely env (fun result => OnOk (Held env) result.1)
      ((secretCertWriter env.dnsName).overwrite secret.resourceVersion ca) s := by
  refine ((safe_generate).frame (Seen.stable _ .secret secret) seen).bind ?_
  rintro (text | certs) t ⟨seen, made⟩
  · trivial
  · refine (safe_update_of_seen (Held env certs) seen (fun _ _ _ => bad) ?_
      fun u _ => held_put sound made).bind ?_
    · intro u here _ secret' set signing there has valid
      rw [here] at there
      cases there
      rw [learned set has] at made
      refine ⟨_, signing, u.put_here .secret _, ?_, .inr rfl, env.parsed_parsed set signing valid⟩
      rw [secretToCerts_certsToSecret]
      exact made.ca_eq valid
    · rintro (error | stored) t held
      · trivial
      · exact held

/-- The certificate was written now or found. -/
theorem safe_createIfNotExists :
    Safely env (fun result => OnOk (fun certs t => Wrote env certs t ∨
        Read env result.2.2 certs t) result.1)
      (createIfNotExists (secretCertWriter env.dnsName) ca) s := by
  refine (safe_read).bind ?_
  rintro ⟨error | certs, ca⟩ t read
  · cases error with
    | notFound text =>
      refine (safe_write sound).bind ?_
      rintro ⟨error | certs, ca⟩ t wrote
      · cases error with
        | alreadyExists text =>
          refine (safe_read).bind ?_
          rintro ⟨error | certs, ca⟩ t read
          · trivial
          · exact .inr read
        | notFound text => trivial
        | other text => trivial
      · exact .inl wrote
    | alreadyExists text => trivial
    | other text => trivial
  · exact .inr read

/-- A certificate that is returned is in the Secret. -/
theorem safe_ensureCert : Safely env (OnOk fun result => Held env result.1) (ensureCert env) s := by
  unfold ensureCert handleCommon
  split
  · trivial
  · refine (safe_createIfNotExists sound).bind ?_
    rintro ⟨error | certs, changed, ca⟩ t found
    · trivial
    · dsimp only
      split
      · next valid =>
        obtain wrote | ⟨secret, seen, rfl, -⟩ := found
        · exact wrote.1
        · exact seen.held valid
      · next invalid =>
        obtain wrote | ⟨secret, seen, rfl, learned⟩ := found
        · exact absurd wrote.2 invalid
        · have bad : ¬Good env secret.body := fun good =>
            invalid (validCert_secretToCerts.mpr good)
          have version : (secretToCerts secret).resourceVersion = secret.resourceVersion := by
            rw [secretToCerts_eq]
          rw [version]
          refine (safe_overwrite sound seen bad learned).bind ?_
          rintro ⟨error | certs, ca⟩ t held
          · trivial
          · exact held

end

section Configurations

variable {kind : Kind} {caBundle : Option Bytes} {webhooks : List ClientConfig}

/-- A webhook that was entered is left as it is. -/
theorem ensureClientConfig_idem {hook hook' : ClientConfig}
    (made : ensureClientConfig env caBundle hook = some hook') :
    ensureClientConfig env caBundle hook' = some hook' ∧ hook'.caBundle = caBundle := by
  obtain ⟨bundle, service, url⟩ := hook
  cases service with
  | none =>
    cases made
    exact ⟨rfl, rfl⟩
  | some service =>
    obtain ⟨ns, name, path⟩ := service
    by_cases hosted : env.host ≠ ""
    · simp only [ensureClientConfig, if_pos hosted] at made
      cases path with
      | none => cases made
      | some path =>
        cases made
        exact ⟨rfl, rfl⟩
    · simp only [ensureClientConfig, if_neg hosted] at made
      cases made
      simp only [ensureClientConfig, if_neg hosted, and_self]

/-- A second round changes nothing. -/
theorem ensured_idem {webhooks' : List ClientConfig}
    (made : ensured env caBundle webhooks = some webhooks') :
    ensured env caBundle webhooks' = some webhooks' ∧
      ∀ hook ∈ webhooks', hook.caBundle = caBundle := by
  induction webhooks generalizing webhooks' with
  | nil =>
    cases made
    exact ⟨rfl, by simp⟩
  | cons hook webhooks ih =>
    rw [ensured, List.mapM_cons] at made
    obtain ⟨hook', one, rest⟩ := Option.bind_eq_some_iff.mp made
    obtain ⟨more, others, eq⟩ := Option.bind_eq_some_iff.mp rest
    cases eq
    obtain ⟨one', bundle⟩ := ensureClientConfig_idem one
    obtain ⟨others', bundles⟩ := ih others
    rw [ensured] at others'
    refine ⟨?_, List.forall_mem_cons.mpr ⟨bundle, bundles⟩⟩
    rw [ensured, List.mapM_cons, one', others']
    rfl

/-- The CA of the Secret is that of the certificate. -/
theorem Held.caCert_eq (held : Held env certs t) (here : t.cell .secret = some secret) :
    (secretToCerts secret).caCert = certs.caCert := by
  obtain ⟨secret', here', -, same⟩ := held
  rw [here] at here'
  cases here'
  have texts : (secretToCerts secret).pems.caCert = certs.pems.caCert :=
    congrArg Artifacts.caCert same
  exact texts

/-- A configuration is left alone exactly if it has the CA. -/
theorem Held.fixed_iff (held : Held env certs t) (webhooks : List ClientConfig) :
    Fixed env t (.config kind) webhooks ↔
      ensured env certs.caCert webhooks = some webhooks := by
  obtain ⟨secret, here, good, -⟩ := id held
  constructor
  · rintro ⟨secret', here', -, same⟩
    rw [held.caCert_eq here'] at same
    exact same
  · intro same
    rw [← held.caCert_eq here] at same
    exact ⟨secret, here, good, same⟩

/-- The configuration has what the CA of the certificate in the Secret asks for. -/
def Settled (env : Env) (certs : Artifacts) (kind : Kind) (t : Store) : Prop :=
  Held env certs t ∧ ∃ config, t.cell (.config kind) = some config ∧
    ensured env certs.caCert config.body = some config.body

/-- A configuration with the CA stays. -/
theorem Settled.stable (certs : Artifacts) (kind : Kind) :
    Stable (Keeps env) (Settled env certs kind) := by
  rintro s t ⟨held, config, here, same⟩ keeps
  have stays := keeps.stays here ((held.fixed_iff config.body).mpr same)
  exact ⟨Held.stable certs s t held keeps, config, stays, same⟩

/-- A configuration that was read while the certificate was in the Secret. -/
abbrev Known (env : Env) (certs : Artifacts) (kind : Kind) (config : Object (List ClientConfig))
    (t : Store) : Prop :=
  Seen env (Held env certs) (.config kind) config t

/-- A configuration is read while the certificate is held. -/
theorem safe_getConfiguration (held : Held env certs s) :
    Safely env (OnOk (Known env certs kind)) (getConfiguration kind) s := by
  refine (safe_get (Held.stable certs) held).bind ?_
  rintro (error | config) t known
  · trivial
  · exact known

/-- An update enters the CA. -/
theorem safe_updateConfiguration {config : Object (List ClientConfig)}
    (known : Known env certs kind config s)
    (made : ensured env certs.caCert config.body = some webhooks) :
    Safely env (OnOk fun _ => Settled env certs kind)
      (updateConfiguration kind config webhooks) s := by
  obtain ⟨start, held, here, keeps⟩ := id known
  have held' : ∀ t, Keeps env s t → Held env certs t := fun t more =>
    Held.stable certs start t held (keeps.trans more)
  unfold updateConfiguration
  split
  · next same =>
    subst same
    exact Settled.stable certs kind start s ⟨held, config, here, made⟩ keeps
  · next changed =>
    refine (safe_update_of_seen (Settled env certs kind) known (fun t others _ => ?_)
      (fun _ _ slot => by cases slot) fun t others => ⟨held' _ others, _,
        t.put_here (.config kind) webhooks, (ensured_idem made).1⟩).bind ?_
    · rw [(held' t others).fixed_iff, made]
      exact fun same => changed (Option.some.inj same)
    · rintro (error | stored) t settled
      · trivial
      · exact settled

/-- Both configurations have the CA afterwards. -/
theorem safe_ensureConfigurations (held : Held env certs s) :
    Safely env (OnOk fun _ t => ∀ kind, Settled env certs kind t)
      (ensureConfigurations env certs.caCert) s := by
  refine ((safe_getConfiguration held).frame (Held.stable certs) held).bind ?_
  rintro (error | mutating) t ⟨held, known⟩
  · trivial
  refine ((safe_getConfiguration held).frame
    (Seen.stable _ (.config .mutating) mutating) known).bind ?_
  rintro (error | validating) t ⟨known, known'⟩
  · trivial
  dsimp only
  split
  · next mutating' validating' made made' =>
    refine ((safe_updateConfiguration known made).frame
      (Seen.stable _ (.config .validating) validating) known').bind ?_
    rintro (error | ⟨⟩) t ⟨known', settled⟩
    · trivial
    · refine ((safe_updateConfiguration known' made').frame
        (Settled.stable certs .mutating) settled).mono ?_
      rintro (error | ⟨⟩) t ⟨settled, settled'⟩
      · trivial
      · intro kind
        cases kind with
        | mutating => exact settled
        | validating => exact settled'
  · trivial

/-- A sync that succeeds leaves everything settled. -/
theorem safe_sync (sound : env.Sound) :
    Safely env (OnOk fun _ t => ∃ certs, ∀ kind, Settled env certs kind t) (sync env) s := by
  refine (safe_ensureCert sound).bind ?_
  rintro (error | ⟨certs, changed⟩) t held
  · trivial
  rintro u others (text | ⟨⟩) v rfl
  · exact ⟨.refl v, trivial⟩
  · refine ⟨.refl v, ?_⟩
    refine (safe_ensureConfigurations (Held.stable certs t v held others)).bind ?_
    rintro (error | ⟨⟩) t settled
    · cases error with
      | message text => trivial
      | panic => trivial
    · exact ⟨certs, settled⟩

end Configurations

section Agreement

variable {ι : Type} [DecidableEq ι]

/-- Steps of replicas that run `main` again and again. -/
abbrev Reaches {α : Type} (env : Env) (main : Prog Response α) :
    System Store ι Response α → System Store ι Response α → Prop :=
  Relation.ReflTransGen (Step (Serves env.toCrypto) main)

/-- Every run of safe programs keeps what they rely on, and every result is as it should be. -/
theorem keeps_of_reach {ε α : Type} {main : Prog Response (Except ε α)} {post : α → Store → Prop}
    (stable : ∀ a, Stable (Keeps env) (post a)) (starts : ∀ s, Safely env (OnOk post) main s)
    {start first second : System Store ι Response (Except ε α)}
    (fresh : ∀ i, start.threads i = main)
    (early : Reaches env main start first) (late : Reaches env main first second) :
    Keeps env first.state second.state ∧
      (∀ i a, first.threads i = .done (.ok a) → post a first.state) ∧
      ∀ i a, second.threads i = .done (.ok a) → post a second.state := by
  have trans : ∀ s t u, Keeps env s t → Keeps env t u → Keeps env s u :=
    fun _ _ _ => Keeps.trans
  have stable' : ∀ result : Except ε α, Stable (Keeps env) (OnOk post result) := by
    intro result
    cases result with
    | error e => exact fun _ _ _ _ => trivial
    | ok a => exact stable a
  have began : ∀ i, Safely env (OnOk post) (start.threads i) start.state := by
    intro i
    rw [fresh i]
    exact starts _
  obtain ⟨-, safe⟩ := safe_of_reach Keeps.refl trans stable' starts began early
  obtain ⟨keeps, safe'⟩ := safe_of_reach Keeps.refl trans stable' starts safe late
  refine ⟨keeps, fun i a ended => ?_, fun i a ended => ?_⟩
  · have ends := safe i
    rw [ended] at ends
    exact ends
  · have ends := safe' i
    rw [ended] at ends
    exact ends

/-- A certificate that a replica gets in a run is in the Secret from then on, and every replica that
gets one later gets the same. -/
theorem ensureCert_agree (sound : env.Sound)
    {start first second : System Store ι Response (Except CertError (Artifacts × Bool))}
    (fresh : ∀ i, start.threads i = ensureCert env)
    (early : Reaches env (ensureCert env) start first)
    (late : Reaches env (ensureCert env) first second)
    {i : ι} {one : Artifacts × Bool} (ended : first.threads i = .done (.ok one)) :
    (∃ secret, second.state.cell .secret = some secret ∧
      (secretToCerts secret).pems = one.1.pems) ∧
    ∀ j other, second.threads j = .done (.ok other) → other.1.pems = one.1.pems := by
  obtain ⟨keeps, results, results'⟩ := keeps_of_reach (fun result => Held.stable result.1)
    (fun _ => safe_ensureCert sound) fresh early late
  obtain ⟨secret, here, -, same⟩ := Held.stable one.1 _ _ (results i one ended) keeps
  refine ⟨⟨secret, here, same⟩, fun j other ended' => ?_⟩
  obtain ⟨secret', here', -, same'⟩ := results' j other ended'
  rw [here] at here'
  cases here'
  exact same'.symm.trans same

/-- A CA is the certificate `7 n` with the key `1 n`, or `8 n` in another encoding; it signs the key
`k` by the text `7 n k`. -/
def toy : Env where
  verified cert key caCert _ := cert = caCert ++ key
  parsed ca :=
    match ca with
    | ⟨[1, n], [7, m]⟩ | ⟨[8, n], [7, m]⟩ => if n = m then some ⟨[1, n], [7, m]⟩ else none
    | _ => none
  parsed_parsed := by
    intro set signing parsed
    split at parsed
    · split at parsed
      next same =>
        cases parsed
        exact if_pos same
      next => cases parsed
    · split at parsed
      next same =>
        cases parsed
        exact if_pos same
      next => cases parsed
    · cases parsed
  newCA ca := ca = ⟨[1, 5], [7, 5]⟩
  signs ca _ key cert := cert = ca.cert ++ key
  host := ""
  port := 443
  ns := "ctrlmesh"
  serviceName := "webhook"

/-- The toy generator makes valid certificates. -/
theorem toy_sound : toy.Sound := by
  rintro signing key cert - rfl
  exact decide_eq_true rfl

/-- No Secret, and configurations with a webhook at a service. -/
def bare : Store where
  cell
    | .secret => none
    | .config _ => some ⟨[⟨none, some ⟨"default", "hook", some "/mutate"⟩, none⟩], 1⟩
  next := 2
  positive := Nat.two_pos
  ordered slot stored here := by
    cases slot with
    | secret => cases here
    | config kind =>
      cases here
      exact ⟨Nat.one_pos, Nat.one_lt_two⟩

/-- A certificate for the key `n`. -/
def made (n : UInt8) : Artifacts := ⟨some [n], some [7, 5, n], some [1, 5], some [7, 5], 0⟩

/-- The toy generator may make the `n`-th certificate. -/
theorem serves_made (n : UInt8) (origin : ca = none ∨ ca = some ⟨[8, 5], [7, 5]⟩) :
    Serves toy.toCrypto s (.generate ca toy.dnsName) (.ok (made n)) s := by
  refine ⟨rfl, ?_⟩
  rintro certs ⟨⟩
  refine ⟨⟨[1, 5], [7, 5]⟩, [n], [7, 5, n], ?_, rfl, rfl⟩
  rcases origin with rfl | rfl
  · exact .inr ⟨rfl, rfl⟩
  · exact .inl rfl

/-- Both replicas find no Secret, after the first call of one has failed; one creates it, the other
is told that it exists and reads it. -/
theorem ensureCert_agree_bare :
    ∃ second : System Store Bool Response (Except CertError (Artifacts × Bool)),
      (∃ other, second.threads false = .done (.ok other)) ∧
      (∃ secret, second.state.cell .secret = some secret ∧
        (secretToCerts secret).pems = made 2) ∧
      ∀ j other, second.threads j = .done (.ok other) → other.1.pems = made 2 := by
  let start : System Store Bool Response (Except CertError (Artifacts × Bool)) :=
    ⟨bare, fun _ => ensureCert toy⟩
  have early : Reaches toy (ensureCert toy) start _ :=
    .head (.call (i := false) rfl ⟨"timeout", .inr ⟨rfl, .inl rfl⟩⟩) <|
    .head (.start (i := false) rfl) <|
    .head (.call (i := false) rfl ⟨"", .inl ⟨rfl, rfl⟩⟩) <|
    .head (.call (i := true) rfl ⟨"", .inl ⟨rfl, rfl⟩⟩) <|
    .head (.call (i := false) rfl (serves_made 1 (.inl rfl))) <|
    .head (.call (i := true) rfl (serves_made 2 (.inl rfl))) <|
    .head (.call (i := true) rfl ⟨"", .inl ⟨rfl, rfl⟩⟩) .refl
  exact ⟨_, ⟨_, rfl⟩, ensureCert_agree (i := true) toy_sound (fun _ => rfl) early
    (.head (.call (i := false) rfl ⟨"", .inl ⟨rfl, rfl⟩⟩) <|
      .head (.call (i := false) rfl ⟨"", .inl ⟨rfl, rfl⟩⟩) .refl) rfl⟩

/-- What a sync leaves stays. -/
theorem settled_stable : Stable (Keeps env) fun t => ∃ certs, ∀ kind, Settled env certs kind t := by
  rintro s t ⟨certs, settled⟩ keeps
  exact ⟨certs, fun kind => Settled.stable certs kind s t (settled kind) keeps⟩

/-- When one replica has synced, every webhook has the CA of the certificate in the Secret, and no
replica writes any of these objects again. -/
theorem sync_settles (sound : env.Sound)
    {start first second : System Store ι Response (Except SyncError Unit)}
    (fresh : ∀ i, start.threads i = sync env)
    (early : Reaches env (sync env) start first) (late : Reaches env (sync env) first second)
    {i : ι} (ended : first.threads i = .done (.ok ())) :
    (∃ secret, first.state.cell .secret = some secret ∧
      validCert env.toCrypto (secretToCerts secret) env.dnsName = true ∧
      ∀ kind, ∃ config, first.state.cell (.config kind) = some config ∧
        ∀ hook ∈ config.body, hook.caBundle = (secretToCerts secret).caCert) ∧
    ∀ slot, second.state.cell slot = first.state.cell slot := by
  obtain ⟨keeps, results, -⟩ := keeps_of_reach (fun _ => settled_stable)
    (fun _ => safe_sync sound) fresh early late
  obtain ⟨certs, settled⟩ := results i () ended
  have held := (settled .mutating).1
  obtain ⟨secret, here, good, -⟩ := id held
  refine ⟨⟨secret, here, validCert_secretToCerts.mpr good, fun kind => ?_⟩,
    fun slot => ?_⟩
  · obtain ⟨-, config, there, same⟩ := settled kind
    rw [held.caCert_eq here]
    exact ⟨config, there, (ensured_idem same).2⟩
  · cases slot with
    | secret =>
      rw [here]
      exact keeps.stays here good
    | config kind =>
      obtain ⟨-, config, there, same⟩ := settled kind
      rw [there]
      exact keeps.stays there ((held.fixed_iff config.body).mpr same)

/-- One replica creates the Secret and gets no answer, the other is told that it exists, and enters
the CA in the webhooks; then the first one starts over. -/
theorem sync_settles_bare :
    ∃ first second : System Store Bool Response (Except SyncError Unit),
      (∀ kind, (first.state.cell (.config kind)).map (·.body) =
        some [⟨some [7, 5], some ⟨"ctrlmesh", "webhook", some "/mutate"⟩, none⟩]) ∧
      (∃ secret, first.state.cell .secret = some secret ∧
        validCert toy.toCrypto (secretToCerts secret) toy.dnsName = true ∧
        ∀ kind, ∃ config, first.state.cell (.config kind) = some config ∧
          ∀ hook ∈ config.body, hook.caBundle = (secretToCerts secret).caCert) ∧
      ∀ slot, second.state.cell slot = first.state.cell slot := by
  let start : System Store Bool Response (Except SyncError Unit) := ⟨bare, fun _ => sync toy⟩
  have early : Reaches toy (sync toy) start _ :=
    .head (.call (i := true) rfl ⟨"", .inl ⟨rfl, rfl⟩⟩) <|
    .head (.call (i := false) rfl ⟨"", .inl ⟨rfl, rfl⟩⟩) <|
    .head (.call (i := false) rfl (serves_made 1 (.inl rfl))) <|
    .head (.call (i := false) rfl ⟨"timeout", .inr ⟨rfl, .inr rfl⟩⟩) <|
    .head (.call (i := true) rfl (serves_made 2 (.inl rfl))) <|
    .head (.call (i := true) rfl ⟨"", .inl ⟨rfl, rfl⟩⟩) <|
    .head (.call (i := true) rfl ⟨"", .inl ⟨rfl, rfl⟩⟩) <|
    .head (.call (i := true) rfl (show Serves toy.toCrypto _ (.writeCertsToDir _) (.ok ()) _
      from rfl)) <|
    .head (.call (i := true) rfl ⟨"", .inl ⟨rfl, rfl⟩⟩) <|
    .head (.call (i := true) rfl ⟨"", .inl ⟨rfl, rfl⟩⟩) <|
    .head (.call (i := true) rfl ⟨"", .inl ⟨rfl, rfl⟩⟩) <|
    .head (.call (i := true) rfl ⟨"", .inl ⟨rfl, rfl⟩⟩) .refl
  refine ⟨_, _, fun kind => ?_, sync_settles (i := true) toy_sound (fun _ => rfl) early
    (.head (.start (i := false) rfl) <|
      .head (.call (i := false) rfl ⟨"", .inl ⟨rfl, rfl⟩⟩) .refl) rfl⟩
  cases kind with
  | mutating => rfl
  | validating => rfl

/-- A CA that is still good for signing stays in the Secret while certificates are renewed. -/
theorem sync_keeps_ca (sound : env.Sound)
    {start first second : System Store ι Response (Except SyncError Unit)}
    (fresh : ∀ i, start.threads i = sync env)
    (early : Reaches env (sync env) start first) (late : Reaches env (sync env) first second)
    {secret : Object SecretData} (here : first.state.cell .secret = some secret) {ca signing : CA}
    (has : (secretToCerts secret).ca = some ca) (valid : env.parsed ca = some signing) :
    ∃ secret' ca', second.state.cell .secret = some secret' ∧
      (secretToCerts secret').ca = some ca' ∧ (ca' = ca ∨ ca' = signing) ∧
      env.parsed ca' = some signing := by
  obtain ⟨keeps, -, -⟩ := keeps_of_reach (fun _ => settled_stable)
    (fun _ => safe_sync sound) fresh early late
  exact keeps.trust secret ca signing here has valid

/-- A Secret with a CA in another encoding than that of the generator, and a certificate that does
not pass the check. -/
def expired : Store :=
  bare.put .secret (certsToSecret ⟨some [9], some [0], some [8, 5], some [7, 5], 0⟩).body

/-- Both replicas make a new certificate with the CA of the Secret; the second to write it gets a
conflict. -/
theorem sync_keeps_ca_expired :
    ∃ second : System Store Bool Response (Except SyncError Unit),
      (∃ secret, second.state.cell .secret = some secret ∧ (secretToCerts secret).pems = made 2) ∧
      ∃ secret' ca', second.state.cell .secret = some secret' ∧
        (secretToCerts secret').ca = some ca' ∧
        (ca' = ⟨[8, 5], [7, 5]⟩ ∨ ca' = ⟨[1, 5], [7, 5]⟩) ∧
        toy.parsed ca' = some ⟨[1, 5], [7, 5]⟩ := by
  let start : System Store Bool Response (Except SyncError Unit) := ⟨expired, fun _ => sync toy⟩
  have late : Reaches toy (sync toy) start _ :=
    .head (.call (i := false) rfl ⟨"", .inl ⟨rfl, rfl⟩⟩) <|
    .head (.call (i := true) rfl ⟨"", .inl ⟨rfl, rfl⟩⟩) <|
    .head (.call (i := false) rfl (serves_made 1 (.inr rfl))) <|
    .head (.call (i := true) rfl (serves_made 2 (.inr rfl))) <|
    .head (.call (i := true) rfl ⟨"", .inl ⟨rfl, rfl⟩⟩) <|
    .head (.call (i := false) rfl ⟨"conflict", .inl ⟨rfl, rfl⟩⟩) .refl
  exact ⟨_, ⟨_, rfl, rfl⟩, sync_keeps_ca toy_sound (fun _ => rfl) .refl late rfl rfl rfl⟩

end Agreement

end CtrlMesh.Webhook.Certs
