import CtrlMesh.CircuitBreaker.Proto
import CtrlMesh.Lib.MultiIndex
import Mathlib.Algebra.Order.BigOperators.Group.List

/-!
# The store of traffic-intercept rules

`trafficInterceptStore` of `store.go` and the validation that reads it. Go iterates over maps and
sets in no fixed order: a validation takes the orders of its two loops as arguments, and the
answers it can give are those over all orders. `compile` is `regexp.Compile`; a compiled
expression is the set of texts it matches.
-/

namespace CtrlMesh.CircuitBreaker

open Labels Lib

/-- `indexForRest`. -/
def indexForRest (url method : String) : String := url ++ ":" ++ method

/-- `regexpInfo`; the expression is kept as its text. -/
structure RegexpInfo where
  reg : String
  regType : InterceptType
  method : String
  deriving DecidableEq

/-- `trafficInterceptStore`. -/
structure TrafficInterceptStore where
  rules : StringMap TrafficInterceptRule
  normalIndexes : MultiIndex String String
  regexpIndexes : StringMap (List RegexpInfo)

/-- `newTrafficInterceptStore`. -/
def TrafficInterceptStore.new : TrafficInterceptStore := ⟨∅, ∅, ∅⟩

/-- The values a normal rule is indexed under. -/
def TrafficInterceptRule.restIndexes (rule : TrafficInterceptRule) : List String :=
  rule.contents.flatMap fun content => rule.methods.map fun method => indexForRest content method

section Store

variable (compile : Compile)

/-- The expressions a regexp rule is indexed by; one that does not compile is skipped. -/
def TrafficInterceptRule.regexpInfos (rule : TrafficInterceptRule) : List RegexpInfo :=
  rule.contents.flatMap fun content =>
    if (compile content).isSome then
      rule.methods.map fun method => ⟨content, rule.interceptType, method⟩
    else []

namespace TrafficInterceptStore

/-- `s.regexpIndexes[key] = append(s.regexpIndexes[key], info)` for every expression. -/
def appendInfos (indexes : StringMap (List RegexpInfo)) (key : String) (infos : List RegexpInfo) :
    StringMap (List RegexpInfo) :=
  infos.foldl (fun indexes info =>
    indexes.insert key ((indexes.lookup key).getD [] ++ [info])) indexes

/-- `deleteFromIndex`. -/
def deleteFromIndex (s : TrafficInterceptStore) (oldOne : TrafficInterceptRule) (key : String) :
    TrafficInterceptStore :=
  match oldOne.contentType with
  | .normal => { s with normalIndexes := s.normalIndexes.removeAll oldOne.restIndexes key }
  | .regexp => { s with regexpIndexes := s.regexpIndexes.erase key }
  | .unnamed _ => s

/-- The part of `updateIndex` that adds the new rule. -/
def addToIndex (s : TrafficInterceptStore) (newOne : TrafficInterceptRule) (key : String) :
    TrafficInterceptStore :=
  match newOne.contentType with
  | .normal => { s with normalIndexes := s.normalIndexes.addAll newOne.restIndexes key }
  | .regexp =>
    { s with regexpIndexes := appendInfos s.regexpIndexes key (newOne.regexpInfos compile) }
  | .unnamed _ => s

/-- `updateIndex`. -/
def updateIndex (s : TrafficInterceptStore) (oldOne : Option TrafficInterceptRule)
    (newOne : TrafficInterceptRule) (key : String) : TrafficInterceptStore :=
  let s := match oldOne with
    | none => s
    | some oldOne => s.deleteFromIndex oldOne key
  s.addToIndex compile newOne key

/-- `createOrUpdateRule`. -/
def createOrUpdateRule (s : TrafficInterceptStore) (key : String) (rule : TrafficInterceptRule) :
    TrafficInterceptStore :=
  { s with rules := s.rules.insert key rule }.updateIndex compile (s.rules.lookup key) rule key

/-- `deleteRule`: the rule leaves the index and stays in `rules`. -/
def deleteRule (s : TrafficInterceptStore) (key : String) : TrafficInterceptStore :=
  match s.rules.lookup key with
  | none => s
  | some obj => s.deleteFromIndex obj key

end TrafficInterceptStore

/-- `ValidateResult`. -/
structure ValidateResult where
  allowed : Bool
  reason : String
  message : String
  deriving DecidableEq

/-- The answer of a rule found by its content; a rule of neither type gives none. -/
def normalVerdict (rule : TrafficInterceptRule) : Option ValidateResult :=
  match rule.interceptType with
  | .whitelist => some ⟨true, "Whitelist",
      "Traffic is allow by whitelist rule, name: " ++ rule.name⟩
  | .blacklist => some ⟨false, "Blacklist",
      "Traffic is intercept by blacklist rule, name: " ++ rule.name⟩
  | .unnamed _ => none

/-- The answer of an expression that matches. -/
def regexpVerdict (key : String) (info : RegexpInfo) : Option ValidateResult :=
  match info.regType with
  | .whitelist => some ⟨true, "Whitelist",
      "Traffic is allow by whitelist rule: " ++ key ++ ", regexp: " ++ info.reg⟩
  | .blacklist => some ⟨false, "Blacklist",
      "Traffic is intercept by blacklist rule: " ++ key ++ ", regexp: " ++ info.reg⟩
  | .unnamed _ => none

/-- `reg.method == method && reg.reg.MatchString(URL)`. -/
def RegexpInfo.hits (info : RegexpInfo) (url method : String) : Bool :=
  info.method == method && ((compile info.reg).elim false fun language => language url)

/-- The answer when no rule matches. -/
def defaultVerdict (whitelisted : Bool) : ValidateResult :=
  if whitelisted then
    ⟨false, "No rule match", "Default strategy is whitelist, should deny"⟩
  else
    ⟨true, "No rule match", "Default strategy is blacklist, should allow"⟩

namespace TrafficInterceptStore

variable (s : TrafficInterceptStore) (url method : String)

/-- The keys looked at by content: those of the method, or else those of every method. -/
def indexed : Finset String :=
  match s.normalIndexes.lookup (indexForRest url method) with
  | some keys => keys
  | none => s.normalIndexes.keysAt (indexForRest url "*")

/-- The answer of a rule found by content. -/
def normalAnswer (key : String) : Option ValidateResult := (s.rules.lookup key).bind normalVerdict

/-- The answer of the expressions of a rule. -/
def regexpAnswer (key : String) : Option ValidateResult :=
  ((s.regexpIndexes.lookup key).getD []).findSome? fun info =>
    if info.hits compile url method then regexpVerdict key info else none

/-- Whether some rule is a whitelist. -/
def whitelisted : Bool :=
  s.rules.entries.any fun entry => entry.2.interceptType = .whitelist

/-- `ValidateTrafficIntercept`, with the orders in which its loops meet their keys. -/
def validateTrafficIntercept (normalOrder regexpOrder : List String) : ValidateResult :=
  ((normalOrder.findSome? s.normalAnswer).or
    (regexpOrder.findSome? (s.regexpAnswer compile url method))).getD
    (defaultVerdict s.whitelisted)

/-- The answers a validation can give. -/
def Answers (result : ValidateResult) : Prop :=
  ∃ normalOrder regexpOrder : List String,
    normalOrder.Nodup ∧ normalOrder.toFinset = s.indexed url method ∧
    regexpOrder.Nodup ∧ regexpOrder.toFinset = s.regexpIndexes.keys.toFinset ∧
    s.validateTrafficIntercept compile url method normalOrder regexpOrder = result

end TrafficInterceptStore

namespace TrafficInterceptStore

variable {compile}

theorem lookup_appendInfos (indexes : StringMap (List RegexpInfo)) (key other : String)
    (infos : List RegexpInfo) : (appendInfos indexes key infos).lookup other =
      if other = key ∧ infos ≠ [] then some ((indexes.lookup key).getD [] ++ infos)
      else indexes.lookup other := by
  induction infos generalizing indexes with
  | nil => simp [appendInfos]
  | cons info infos ih =>
    have step : appendInfos indexes key (info :: infos) =
        appendInfos (indexes.insert key ((indexes.lookup key).getD [] ++ [info])) key infos := rfl
    rw [step, ih]
    by_cases same : other = key
    · subst same
      by_cases last : infos = [] <;> simp [last]
    · simp [same]

/-- The indexes are those of the live rules, where `live key rule` says that `rule` is registered
under `key`. `rules` may have others too. -/
structure Represents (compile : Compile) (s : TrafficInterceptStore)
    (live : String → TrafficInterceptRule → Prop) : Prop where
  rules : ∀ key rule, live key rule → s.rules.lookup key = some rule
  tight : s.normalIndexes.Tight
  normal : ∀ value key, key ∈ s.normalIndexes.keysAt value ↔
    ∃ rule, live key rule ∧ rule.contentType = .normal ∧ value ∈ rule.restIndexes
  regexp : ∀ key infos, s.regexpIndexes.lookup key = some infos ↔
    infos ≠ [] ∧ ∃ rule, live key rule ∧ rule.contentType = .regexp ∧
      rule.regexpInfos compile = infos

variable {s : TrafficInterceptStore} {live : String → TrafficInterceptRule → Prop} {key : String}

/-- All live rules but those under a key. -/
def Without (live : String → TrafficInterceptRule → Prop) (key other : String)
    (rule : TrafficInterceptRule) : Prop :=
  other ≠ key ∧ live other rule

variable {old new : TrafficInterceptRule} {keys : Finset String}

theorem deleteFromIndex_rules : (s.deleteFromIndex old key).rules = s.rules := by
  unfold deleteFromIndex
  split <;> rfl

theorem addToIndex_rules : (s.addToIndex compile new key).rules = s.rules := by
  unfold addToIndex
  split <;> rfl

variable {value other : String}

theorem tight_deleteFromIndex (tight : s.normalIndexes.Tight) :
    (s.deleteFromIndex old key).normalIndexes.Tight := by
  unfold deleteFromIndex
  split
  · exact tight.removeAll
  · exact tight
  · exact tight

/-- A normal rule leaves the sets of its values. -/
theorem mem_keysAt_deleteFromIndex :
    other ∈ (s.deleteFromIndex old key).normalIndexes.keysAt value ↔
      other ∈ s.normalIndexes.keysAt value ∧
        ¬(old.contentType = .normal ∧ other = key ∧ value ∈ old.restIndexes) := by
  unfold deleteFromIndex
  split <;> simp [MultiIndex.mem_keysAt_removeAll, *]

/-- The key of a regexp rule is erased. -/
theorem lookup_deleteFromIndex : (s.deleteFromIndex old key).regexpIndexes.lookup other =
    if old.contentType = .regexp ∧ other = key then none else s.regexpIndexes.lookup other := by
  unfold deleteFromIndex
  split
  · simp [*]
  · by_cases same : other = key
    · subst same
      simp [*]
    · simp [AList.lookup_erase_ne same, same]
  · simp [*]

theorem tight_addToIndex (tight : s.normalIndexes.Tight) :
    (s.addToIndex compile new key).normalIndexes.Tight := by
  unfold addToIndex
  split
  · exact tight.addAll
  · exact tight
  · exact tight

/-- A normal rule joins the sets of its values. -/
theorem mem_keysAt_addToIndex :
    other ∈ (s.addToIndex compile new key).normalIndexes.keysAt value ↔
      other ∈ s.normalIndexes.keysAt value ∨
        new.contentType = .normal ∧ other = key ∧ value ∈ new.restIndexes := by
  unfold addToIndex
  split <;> simp [MultiIndex.mem_keysAt_addAll, *]

/-- The expressions of a regexp rule are appended to those of its key. -/
theorem lookup_addToIndex : (s.addToIndex compile new key).regexpIndexes.lookup other =
    if new.contentType = .regexp ∧ other = key ∧ new.regexpInfos compile ≠ [] then
      some ((s.regexpIndexes.lookup key).getD [] ++ new.regexpInfos compile)
    else s.regexpIndexes.lookup other := by
  unfold addToIndex
  split <;> simp [lookup_appendInfos, *]

/-- Taking out the rule last stored under a key leaves no index entry of the key, whether the rule
was live or not. -/
theorem Represents.deleteFromIndex (represents : Represents compile s live)
    (stored : s.rules.lookup key = some old) :
    Represents compile (s.deleteFromIndex old key) (Without live key) := by
  have onlyOld {rule : TrafficInterceptRule} (isLive : live key rule) : rule = old :=
    Option.some.inj ((represents.rules key rule isLive).symm.trans stored)
  refine ⟨fun other rule isLive => ?_, tight_deleteFromIndex represents.tight,
    fun value other => ?_, fun other infos => ?_⟩
  · rw [deleteFromIndex_rules]
    exact represents.rules other rule isLive.2
  · rw [mem_keysAt_deleteFromIndex, represents.normal]
    constructor
    · rintro ⟨⟨rule, isLive, normal, indexed⟩, kept⟩
      refine ⟨rule, ⟨?_, isLive⟩, normal, indexed⟩
      rintro rfl
      obtain rfl := onlyOld isLive
      exact kept ⟨normal, rfl, indexed⟩
    · rintro ⟨rule, ⟨different, isLive⟩, normal, indexed⟩
      exact ⟨⟨rule, isLive, normal, indexed⟩, fun ⟨_, same, _⟩ => different same⟩
  · rw [lookup_deleteFromIndex]
    split
    · next erased => simp [Without, erased.2]
    · next kept =>
      rw [represents.regexp]
      constructor
      · rintro ⟨nonempty, rule, isLive, regexp, same⟩
        refine ⟨nonempty, rule, ⟨?_, isLive⟩, regexp, same⟩
        rintro rfl
        obtain rfl := onlyOld isLive
        exact kept ⟨regexp, rfl⟩
      · rintro ⟨nonempty, rule, ⟨-, isLive⟩, regexp, same⟩
        exact ⟨nonempty, rule, isLive, regexp, same⟩

theorem without_eq (absent : ∀ rule, ¬live key rule) : Without live key = live := by
  funext other rule
  refine propext ⟨And.right, fun isLive => ⟨?_, isLive⟩⟩
  rintro rfl
  exact absent rule isLive

/-- Removing a rule removes what is live under its key. -/
theorem Represents.deleteRule (represents : Represents compile s live) (key : String) :
    Represents compile (s.deleteRule key) (Without live key) := by
  unfold TrafficInterceptStore.deleteRule
  split
  · next missing =>
    rw [without_eq]
    · exact represents
    · intro rule isLive
      rw [represents.rules key rule isLive] at missing
      cases missing
  · next old stored => exact represents.deleteFromIndex stored

/-- Rules that are not live can be replaced. -/
theorem Represents.insertRule (represents : Represents compile s live)
    (absent : ∀ rule, ¬live key rule) (new : TrafficInterceptRule) :
    Represents compile { s with rules := s.rules.insert key new } live := by
  refine ⟨fun other rule isLive => ?_, represents.tight, represents.normal, represents.regexp⟩
  have different : other ≠ key := by
    rintro rfl
    exact absent rule isLive
  rw [AList.lookup_insert_ne different]
  exact represents.rules other rule isLive

/-- The live rules with the one under a key replaced. -/
def Updated (live : String → TrafficInterceptRule → Prop) (key : String)
    (new : TrafficInterceptRule) (other : String) (rule : TrafficInterceptRule) : Prop :=
  other = key ∧ rule = new ∨ Without live key other rule

theorem updated_self {rule : TrafficInterceptRule} :
    Updated live key new key rule ↔ rule = new := by
  simp [Updated, Without]

theorem Represents.addToIndex (represents : Represents compile s (Without live key))
    (stored : s.rules.lookup key = some new) :
    Represents compile (s.addToIndex compile new key) (Updated live key new) := by
  have free : s.regexpIndexes.lookup key = none := by
    rw [Option.eq_none_iff_forall_not_mem]
    intro infos found
    obtain ⟨-, rule, ⟨different, -⟩, -⟩ := (represents.regexp key infos).mp found
    exact different rfl
  refine ⟨fun other rule isLive => ?_, tight_addToIndex represents.tight,
    fun value other => ?_, fun other infos => ?_⟩
  · rw [addToIndex_rules]
    obtain ⟨rfl, rfl⟩ | isLive := isLive
    · exact stored
    · exact represents.rules other rule isLive
  · rw [mem_keysAt_addToIndex, represents.normal]
    constructor
    · rintro (⟨rule, isLive, rest⟩ | ⟨normal, rfl, indexed⟩)
      · exact ⟨rule, .inr isLive, rest⟩
      · exact ⟨new, .inl ⟨rfl, rfl⟩, normal, indexed⟩
    · rintro ⟨rule, ⟨rfl, rfl⟩ | isLive, normal, indexed⟩
      · exact .inr ⟨normal, rfl, indexed⟩
      · exact .inl ⟨rule, isLive, normal, indexed⟩
  · rw [lookup_addToIndex]
    split
    · next added =>
      obtain ⟨regexp, rfl, some_⟩ := added
      simp only [updated_self, exists_eq_left, regexp, true_and, free, Option.getD_none,
        List.nil_append, Option.some.injEq]
      exact ⟨fun same => ⟨same ▸ some_, same⟩, And.right⟩
    · next kept =>
      rw [represents.regexp]
      constructor
      · rintro ⟨nonempty, rule, isLive, rest⟩
        exact ⟨nonempty, rule, .inr isLive, rest⟩
      · rintro ⟨nonempty, rule, ⟨rfl, rfl⟩ | isLive, regexp, same⟩
        · exact absurd ⟨regexp, rfl, same ▸ nonempty⟩ kept
        · exact ⟨nonempty, rule, isLive, regexp, same⟩

theorem deleteFromIndex_withRules (rules : StringMap TrafficInterceptRule)
    (old : TrafficInterceptRule) (key : String) :
    { s with rules := rules }.deleteFromIndex old key =
      { s.deleteFromIndex old key with rules := rules } := by
  unfold deleteFromIndex
  split <;> rfl

theorem createOrUpdateRule_rules (s : TrafficInterceptStore) (key : String)
    (new : TrafficInterceptRule) :
    (s.createOrUpdateRule compile key new).rules = s.rules.insert key new := by
  unfold createOrUpdateRule updateIndex
  dsimp only
  rw [addToIndex_rules]
  cases s.rules.lookup key with
  | none => rfl
  | some old => exact deleteFromIndex_rules

theorem deleteRule_rules (s : TrafficInterceptStore) (key : String) :
    (s.deleteRule key).rules = s.rules := by
  unfold deleteRule
  split
  · rfl
  · exact deleteFromIndex_rules

/-- Registering a rule makes it the live one under its key. -/
theorem Represents.createOrUpdateRule (represents : Represents compile s live) (key : String)
    (new : TrafficInterceptRule) :
    Represents compile (s.createOrUpdateRule compile key new) (Updated live key new) := by
  have absent : ∀ rule, ¬Without live key key rule := fun rule isLive => isLive.1 rfl
  have cleared : Represents compile { s.deleteRule key with rules := s.rules.insert key new }
      (Without live key) := by
    have inserted := (represents.deleteRule key).insertRule absent new
    rwa [deleteRule_rules] at inserted
  have stored : { s.deleteRule key with rules := s.rules.insert key new }.rules.lookup key =
      some new := AList.lookup_insert _
  have same : s.createOrUpdateRule compile key new =
      { s.deleteRule key with rules := s.rules.insert key new }.addToIndex compile new key := by
    unfold TrafficInterceptStore.createOrUpdateRule updateIndex TrafficInterceptStore.deleteRule
    cases s.rules.lookup key with
    | none => rfl
    | some old => rw [← deleteFromIndex_withRules]
  rw [same]
  exact cleared.addToIndex stored

theorem represents_new : Represents compile .new fun _ _ => False := by
  refine ⟨fun _ _ impossible => impossible.elim, MultiIndex.tight_empty, ?_, ?_⟩
  · simp [TrafficInterceptStore.new]
  · simp [TrafficInterceptStore.new]

/-- Some order of a set meets any given key of it first. -/
theorem exists_order_first {first : String} (member : first ∈ keys) :
    ∃ order : List String, order.Nodup ∧ order.toFinset = keys ∧ order.head? = some first := by
  refine ⟨first :: (keys.erase first).toList, ?_, ?_, rfl⟩
  · rw [List.nodup_cons]
    exact ⟨by simp, Finset.nodup_toList _⟩
  · rw [List.toFinset_cons, Finset.toList_toFinset, Finset.insert_erase member]

theorem findSome?_eq_none_of_order {f : String → Option ValidateResult} {order : List String}
    (enumerates : order.toFinset = keys) :
    order.findSome? f = none ↔ ∀ key ∈ keys, f key = none := by
  rw [List.findSome?_eq_none_iff, ← enumerates]
  simp

/-- What can be answered: by the rules found by content; failing those, by the expressions that
match; failing those, by default. -/
theorem answers_iff (url method : String) (result : ValidateResult) :
    s.Answers compile url method result ↔
      (∃ key ∈ s.indexed url method, s.normalAnswer key = some result) ∨
      (∀ key ∈ s.indexed url method, s.normalAnswer key = none) ∧
        ((∃ key ∈ s.regexpIndexes.keys.toFinset,
            s.regexpAnswer compile url method key = some result) ∨
          (∀ key ∈ s.regexpIndexes.keys.toFinset, s.regexpAnswer compile url method key = none) ∧
            result = defaultVerdict s.whitelisted) := by
  constructor
  · rintro ⟨normalOrder, regexpOrder, -, enumerates, -, enumerates', rfl⟩
    unfold validateTrafficIntercept
    rw [← enumerates, ← enumerates']
    cases normal : normalOrder.findSome? s.normalAnswer with
    | some found =>
      obtain ⟨key, member, answer⟩ := List.exists_of_findSome?_eq_some normal
      exact .inl ⟨key, List.mem_toFinset.mpr member, by simpa using answer⟩
    | none =>
      refine .inr ⟨(findSome?_eq_none_of_order rfl).mp normal, ?_⟩
      cases regexp : regexpOrder.findSome? (s.regexpAnswer compile url method) with
      | some found =>
        obtain ⟨key, member, answer⟩ := List.exists_of_findSome?_eq_some regexp
        exact .inl ⟨key, List.mem_toFinset.mpr member, by simpa using answer⟩
      | none => exact .inr ⟨(findSome?_eq_none_of_order rfl).mp regexp, by simp⟩
  · have listed : ∀ keys : Finset String, ∃ order : List String,
        order.Nodup ∧ order.toFinset = keys :=
      fun keys => ⟨keys.toList, Finset.nodup_toList _, Finset.toList_toFinset _⟩
    have starts : ∀ {order : List String} {key : String} {f : String → Option ValidateResult}
        {answer : ValidateResult}, order.head? = some key → f key = some answer →
        order.findSome? f = some answer := by
      intro order key f answer head found
      cases order with
      | nil => cases head
      | cons first rest =>
        cases head
        simp [found]
    obtain ⟨anyNormal, nodup, enumerates⟩ := listed (s.indexed url method)
    obtain ⟨anyRegexp, nodup', enumerates'⟩ := listed s.regexpIndexes.keys.toFinset
    rintro (⟨key, member, answer⟩ | ⟨noNormal, ⟨key, member, answer⟩ | ⟨noRegexp, rfl⟩⟩)
    · obtain ⟨order, nodupOrder, enumeratesOrder, head⟩ := exists_order_first member
      refine ⟨order, anyRegexp, nodupOrder, enumeratesOrder, nodup', enumerates', ?_⟩
      simp [validateTrafficIntercept, starts head answer]
    · obtain ⟨order, nodupOrder, enumeratesOrder, head⟩ := exists_order_first member
      refine ⟨anyNormal, order, nodup, enumerates, nodupOrder, enumeratesOrder, ?_⟩
      rw [validateTrafficIntercept, (findSome?_eq_none_of_order enumerates).mpr noNormal,
        starts head answer]
      rfl
    · refine ⟨anyNormal, anyRegexp, nodup, enumerates, nodup', enumerates', ?_⟩
      rw [validateTrafficIntercept, (findSome?_eq_none_of_order enumerates).mpr noNormal,
        (findSome?_eq_none_of_order enumerates').mpr noRegexp]
      rfl

section Same

variable {t : TrafficInterceptStore}

section

variable (left : Represents compile s live) (right : Represents compile t live)

include left right

theorem Represents.keysAt_eq (value : String) :
    s.normalIndexes.keysAt value = t.normalIndexes.keysAt value := by
  ext key
  rw [left.normal, right.normal]

theorem Represents.indexed_eq (url method : String) :
    s.indexed url method = t.indexed url method := by
  have unfolded : ∀ {u : TrafficInterceptStore}, Represents compile u live → u.indexed url method =
      if u.normalIndexes.keysAt (indexForRest url method) = ∅ then
        u.normalIndexes.keysAt (indexForRest url "*")
      else u.normalIndexes.keysAt (indexForRest url method) := by
    intro u represents
    have missing := represents.tight.lookup_eq_none (indexForRest url method)
    unfold indexed
    cases found : u.normalIndexes.lookup (indexForRest url method) with
    | none => rw [if_pos (missing.mp found)]
    | some keys =>
      have present : u.normalIndexes.keysAt (indexForRest url method) ≠ ∅ := by
        intro empty
        rw [missing.mpr empty] at found
        cases found
      rw [if_neg present]
      simp [MultiIndex.keysAt, found]
  rw [unfolded left, unfolded right, left.keysAt_eq right, left.keysAt_eq right]

theorem Represents.normalAnswer_eq {url method : String} (member : key ∈ s.indexed url method) :
    s.normalAnswer key = t.normalAnswer key := by
  have somewhere : ∃ value, key ∈ s.normalIndexes.keysAt value := by
    unfold indexed at member
    split at member
    · next keys found => exact ⟨indexForRest url method, by simpa [MultiIndex.keysAt, found]⟩
    · exact ⟨_, member⟩
  obtain ⟨value, indexed⟩ := somewhere
  obtain ⟨rule, isLive, -⟩ := (left.normal value key).mp indexed
  rw [normalAnswer, normalAnswer, left.rules key rule isLive, right.rules key rule isLive]

theorem Represents.regexp_eq : s.regexpIndexes.lookup key = t.regexpIndexes.lookup key := by
  ext infos
  exact (left.regexp key infos).trans (right.regexp key infos).symm

theorem Represents.regexpKeys_eq :
    s.regexpIndexes.keys.toFinset = t.regexpIndexes.keys.toFinset := by
  ext key
  rw [List.mem_toFinset, List.mem_toFinset, ← AList.mem_keys, ← AList.mem_keys,
    ← AList.lookup_isSome, ← AList.lookup_isSome, left.regexp_eq right]

theorem Represents.regexpAnswer_eq (url method : String) :
    s.regexpAnswer compile url method = t.regexpAnswer compile url method := by
  funext key
  rw [regexpAnswer, regexpAnswer, left.regexp_eq right]

end

/-- Some text is longer than all given ones. -/
theorem exists_longer (texts : List String) : ∃ text : String, ∀ other ∈ texts,
    other.length < text.length := by
  refine ⟨String.ofList (List.replicate ((texts.map String.length).sum + 1) 'a'), ?_⟩
  intro other member
  have bound : other.length ≤ (texts.map String.length).sum :=
    List.le_sum_of_mem (List.mem_map_of_mem member)
  rw [String.length_ofList, List.length_replicate]
  omega

/-- Some request is matched by no rule. -/
theorem exists_unmatched :
    ∃ url method, s.indexed url method = ∅ ∧
      ∀ key, s.regexpAnswer compile url method key = none := by
  obtain ⟨url, longUrl⟩ := exists_longer s.normalIndexes.keys
  obtain ⟨method, longMethod⟩ := exists_longer
    (s.regexpIndexes.entries.flatMap fun entry => entry.2.map (·.method))
  have missing : ∀ rest, s.normalIndexes.lookup (indexForRest url rest) = none := by
    intro rest
    rw [AList.lookup_eq_none]
    intro member
    have short := longUrl _ member
    rw [indexForRest, String.length_append, String.length_append] at short
    omega
  refine ⟨url, method, ?_, fun key => ?_⟩
  · simp [indexed, missing, MultiIndex.keysAt]
  · rw [regexpAnswer, List.findSome?_eq_none_iff]
    intro info member
    have different : info.method ≠ method := by
      rintro rfl
      cases found : s.regexpIndexes.lookup key with
      | none => simp [found] at member
      | some infos =>
        have entry := AList.mem_lookup_iff.mp found
        rw [found] at member
        have short := longMethod info.method
          (List.mem_flatMap.mpr ⟨_, entry, List.mem_map_of_mem member⟩)
        omega
    simp [RegexpInfo.hits, different]

theorem defaultVerdict_inj {left right : Bool} (same : defaultVerdict left = defaultVerdict right) :
    left = right := by
  revert left right
  decide

/-- Two stores with the same live rules answer alike exactly when they agree on the default. -/
theorem Represents.answers_eq_iff (left : Represents compile s live)
    (right : Represents compile t live) :
    (∀ url method result, s.Answers compile url method result ↔
      t.Answers compile url method result) ↔ s.whitelisted = t.whitelisted := by
  constructor
  · intro same
    obtain ⟨url, method, noNormal, noRegexp⟩ := exists_unmatched
    have answered : s.Answers compile url method (defaultVerdict s.whitelisted) := by
      rw [answers_iff]
      exact .inr ⟨by simp [noNormal], .inr ⟨fun key _ => noRegexp key, rfl⟩⟩
    have answered' := (same url method _).mp answered
    rw [answers_iff, ← left.indexed_eq right, ← left.regexpAnswer_eq right] at answered'
    rcases answered' with ⟨key, member, -⟩ | ⟨-, ⟨key, -, answer⟩ | ⟨-, default⟩⟩
    · simp [noNormal] at member
    · simp [noRegexp] at answer
    · exact defaultVerdict_inj default
  · intro default url method result
    have normal : ∀ key ∈ s.indexed url method, ∀ answer,
        s.normalAnswer key = answer ↔ t.normalAnswer key = answer := by
      intro key member answer
      rw [left.normalAnswer_eq right member]
    rw [answers_iff, answers_iff, ← left.indexed_eq right, ← left.regexpAnswer_eq right,
      ← left.regexpKeys_eq right, default]
    have hits : (∃ key ∈ s.indexed url method, s.normalAnswer key = some result) ↔
        ∃ key ∈ s.indexed url method, t.normalAnswer key = some result :=
      exists_congr fun key => and_congr_right fun member => normal key member _
    have misses : (∀ key ∈ s.indexed url method, s.normalAnswer key = none) ↔
        ∀ key ∈ s.indexed url method, t.normalAnswer key = none :=
      forall₂_congr fun key member => normal key member _
    rw [hits, misses]

end Same

end TrafficInterceptStore

end Store

end CtrlMesh.CircuitBreaker
