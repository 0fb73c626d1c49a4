import CtrlMesh.FaultInjection.Proto
import CtrlMesh.Lib.Assoc
import CtrlMesh.Lib.Effect

/-!
# The fault-injection manager of a proxy

`store.go` and the part of `manager.go` that takes configurations over and finds the rules that
match a request. A rule is stored in one map if its match lists resources and in another if it lists
HTTP matches, whose expressions are compiled into a third map that is never cleaned. A nil
dereference ends a call and leaves the manager as it was when it happened. `compile` is
`regexp.Compile`.
-/

namespace CtrlMesh.FaultInjection

open Labels Lib CircuitBreaker

/-- `store` of the fault injector. -/
structure Store where
  resourcesMatchRules : StringMap HTTPFaultInjection
  restMatchRules : StringMap HTTPFaultInjection
  regexMap : StringMap (String → Bool)

/-- `newFaultInjectionStore`. -/
def Store.new : Store := ⟨∅, ∅, ∅⟩

section

variable (compile : Compile)

/-- The expression of a path or of a host is compiled and kept. -/
def addRegex (regexMap : StringMap (String → Bool)) :
    Option MatchContent → StringMap (String → Bool)
  | none => regexMap
  | some content =>
    if content.regex = "" then regexMap
    else match compile content.regex with
      | some reg => regexMap.insert content.regex reg
      | none => regexMap

/-- `createOrUpdateRule`; it dereferences the match of the rule. -/
def Store.createOrUpdateRule (s : Store) (key : String) (faultInjection : HTTPFaultInjection) :
    Option Store :=
  faultInjection.match_.map fun match_ =>
    let s := if match_.resources.length > 0 then
        { s with resourcesMatchRules := s.resourcesMatchRules.insert key faultInjection }
      else s
    if match_.httpMatch.length > 0 then
      { s with
        restMatchRules := s.restMatchRules.insert key faultInjection
        regexMap := match_.httpMatch.foldl
          (fun regexMap httpMatch =>
            addRegex compile (addRegex compile regexMap httpMatch.path) httpMatch.host)
          s.regexMap }
    else s

/-- `deleteRule`. -/
def Store.deleteRule (s : Store) (key : String) : Store :=
  { s with
    resourcesMatchRules := s.resourcesMatchRules.erase key
    restMatchRules := s.restMatchRules.erase key }

end

/-- `manager` of the fault injector. -/
structure Manager where
  faultInjectionMap : StringMap Config
  faultInjectionStore : Store

/-- `NewManager`. -/
def Manager.new : Manager := ⟨∅, .new⟩

/-- How a call can panic. -/
inductive Panic where
  | nilDereference
  deriving DecidableEq

/-- A call of the manager, which may panic. -/
abbrev Call := EStateM Panic Manager

section

variable (compile : Compile)

/-- `registerRules`. -/
def registerRules (fi : Config) : Call Unit :=
  forM fi.httpFaultInjections fun faultInjection => do
    let m ← get
    match m.faultInjectionStore.createOrUpdateRule compile (ruleKey fi.name faultInjection.name)
        faultInjection with
    | none => throw .nilDereference
    | some store => set { m with faultInjectionStore := store }

/-- `unregisterRules`. -/
def unregisterRules (fiName : String) : Call Unit := do
  let m ← get
  match m.faultInjectionMap.lookup fiName with
  | none => return
  | some fi =>
    let store := fi.httpFaultInjections.foldl
      (fun s faultInjection => s.deleteRule (ruleKey fi.name faultInjection.name))
      m.faultInjectionStore
    set { m with faultInjectionStore := store }

/-- The UPDATE of a configuration that is new or has a new hash. -/
def takeOver (config : Config) (fi : Option Config) : Call Unit := do
  match fi with
  | none => pure ()
  | some fi => unregisterRules fi.name
  modify fun m => { m with faultInjectionMap := m.faultInjectionMap.insert config.name config }
  registerRules compile config

/-- `Sync`: the response, and the error of an unknown option. A check of an unknown configuration
reads the name of a nil one. -/
def sync (config : Config) : Call (ConfigResp × Option String) := do
  let m ← get
  match config.option with
  | .update =>
    match m.faultInjectionMap.lookup config.name with
    | none =>
      takeOver compile config none
      return (⟨true, "new faultInjection with spec hash " ++ config.configHash⟩, none)
    | some fi =>
      if config.configHash = fi.configHash then
        return (⟨true, "faultInjection spec hash not updated, hash " ++ fi.configHash⟩, none)
      else
        takeOver compile config (some fi)
        return (⟨true, "faultInjection spec hash updated, old hash " ++ fi.configHash ++ ", new " ++
          config.configHash⟩, none)
  | .delete =>
    match m.faultInjectionMap.lookup config.name with
    | none =>
      return (⟨true, "faultInjection config " ++ config.name ++ " already deleted"⟩, none)
    | some fi =>
      unregisterRules fi.name
      modify fun m => { m with faultInjectionMap := m.faultInjectionMap.erase config.name }
      return (⟨true, "faultInjection config " ++ fi.name ++ " success deleted"⟩, none)
  | .check =>
    match m.faultInjectionMap.lookup config.name with
    | none => throw .nilDereference
    | some fi =>
      if config.configHash ≠ fi.configHash then
        return (⟨false, "unequal fault injection " ++ fi.name ++ " hash, old " ++ fi.configHash ++
          ", new " ++ config.configHash⟩, none)
      else return (⟨true, ""⟩, none)
  | option =>
    let message := "illegal config option " ++ option.text
    return (⟨false, message⟩, some message)

end

/-- The parts of a `url.URL` that are read. -/
structure URL where
  host : String
  path : String
  deriving DecidableEq

namespace Store

/-- `matchContent`. -/
def matchContent (s : Store) (mc : MatchContent) (content : String) : Bool :=
  if mc.exact ≠ "" then mc.exact == content
  else if mc.regex ≠ "" then
    match s.regexMap.lookup mc.regex with
    | some regex => regex content
    | none => false
  else false

/-- The test of a host or a path, which may be absent. -/
def matchOptional (s : Store) (mc : Option MatchContent) (content : String) : Bool :=
  match mc with
  | none => true
  | some mc => s.matchContent mc content

/-- `matchRest`. -/
def matchRest (s : Store) (match_ : Match) (url : URL) (method : String) : Bool :=
  match_.httpMatch.any fun httpMatch =>
    (httpMatch.method == "*" || httpMatch.method == "" || httpMatch.method == method) &&
      s.matchOptional httpMatch.host url.host && s.matchOptional httpMatch.path url.path

end Store

/-- `matchInList`. -/
def matchInList (list : List String) (t : String) : Bool :=
  list.isEmpty || list.any fun v => v == "*" || t == v

/-- `resourceMatch`. -/
def resourceMatch (matchs : List ResourceMatch) (ns apiGroup resource verb : String) : Bool :=
  matchs.any fun match_ =>
    matchInList match_.apiGroups apiGroup && matchInList match_.resources resource &&
      matchInList match_.verbs verb && matchInList match_.namespaces ns

namespace Manager

/-- `matchHTTPFaultInjection`, in some order: the rules of the injector of `GetInjectorByUrl`. Only
rules with a match are stored. -/
def matchHTTPFaultInjection (m : Manager) (url : URL) (method : String) : List HTTPFaultInjection :=
  (m.faultInjectionStore.restMatchRules.entries.map (·.2)).filter fun rule =>
    rule.match_.any (m.faultInjectionStore.matchRest · url method)

/-- The rules that `GetInjectorByResource` makes its injector of, in some order. -/
def matchResourceFaultInjection (m : Manager) (ns apiGroup resource verb : String) :
    List HTTPFaultInjection :=
  (m.faultInjectionStore.resourcesMatchRules.entries.map (·.2)).filter fun rule =>
    rule.match_.any fun match_ => resourceMatch match_.resources ns apiGroup resource verb

end Manager

end CtrlMesh.FaultInjection
