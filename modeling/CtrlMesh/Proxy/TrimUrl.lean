import CtrlMesh.Lib.Url
import Mathlib.Data.List.Forall2

/-!
# Trimming the prefix of the API server

Behind a gateway the paths of the API server start with a fixed prefix, which `TrimUrl`
(`request.go`) takes away before the resolver reads what is requested. It splits the decoded path,
joins what remains and parses it as a URL again: the query is not part of it, and what was decoded
once is decoded a second time. Of a URL only the parts are modelled that `url.Parse` fills here.
-/

namespace CtrlMesh.Proxy

open Lib.Url

/-- An error of `TrimUrl`: the format handed to `fmt.Errorf`, or that of `url.Parse`. -/
inductive TrimError where
  | refused (format : List Char)
  | unparsable
  deriving DecidableEq

/-- `clear`: the segments that are not empty. -/
def clear (items : List (List Char)) : List (List Char) := items.filter (· ≠ [])

/-- The loop over the segments of the prefix; there are enough segments. -/
def agrees : List (List Char) → List (List Char) → Bool
  | [], _ => true
  | _ :: _, [] => false
  | item :: preSegments, segment :: segments =>
    if item = ['*'] then agrees preSegments segments
    else if item ≠ segment then false
    else agrees preSegments segments

/-- The loop over the remaining segments. -/
def rejoin (segments : List (List Char)) : List Char :=
  segments.foldl (fun resultPath segment => resultPath ++ ('/' :: segment)) []

/-- `TrimUrl`, with the URL and the error it returns. -/
def trimUrl (inUrl : Reference) (prePath : List Char) : Option Reference × Option TrimError :=
  if prePath = [] then (some inUrl, none)
  else
    let segments := clear (inUrl.path.splitOn '/')
    let preSegments := clear (prePath.splitOn '/')
    if segments.length < preSegments.length then
      (some inUrl, some (.refused (prePath ++ " is too long than ".toList ++ inUrl.path)))
    else if !agrees preSegments segments then
      (some inUrl, some (.refused ("fail to trim url, ".toList ++ prePath ++ " is not ".toList ++
        inUrl.path ++ " prefix".toList)))
    else
      match parse (rejoin (segments.drop preSegments.length)) with
      | some localUrl => (some localUrl, none)
      | none => (none, some .unparsable)

/-- The segments start with those of the prefix, and the rest remains. -/
def Starts (preSegments segments rest : List (List Char)) : Prop :=
  ∃ front, segments = front ++ rest ∧
    List.Forall₂ (fun item segment => item = ['*'] ∨ item = segment) preSegments front

section Trim

variable {preSegments segments rest : List (List Char)} {url : Reference} {prePath : List Char}

theorem rejoin_eq : rejoin segments = segments.flatMap ('/' :: ·) := by
  have loop : ∀ (segments : List (List Char)) (result : List Char),
      segments.foldl (fun resultPath segment => resultPath ++ ('/' :: segment)) result =
        result ++ segments.flatMap ('/' :: ·) := by
    intro segments
    induction segments with
    | nil => simp
    | cons segment segments ih => simp [ih]
  exact loop segments []

theorem agrees_iff : agrees preSegments segments = true ↔
    ∃ rest, Starts preSegments segments rest := by
  induction preSegments generalizing segments with
  | nil => exact iff_of_true rfl ⟨segments, [], rfl, .nil⟩
  | cons item preSegments ih =>
    cases segments with
    | nil =>
      refine iff_of_false (by simp [agrees]) ?_
      rintro ⟨rest, front, split, all⟩
      cases all
      cases split
    | cons segment segments =>
      have step : agrees (item :: preSegments) (segment :: segments) = true ↔
          (item = ['*'] ∨ item = segment) ∧ agrees preSegments segments = true := by
        by_cases star : item = ['*']
        · simp [agrees, star]
        · simp [agrees, star]
      rw [step, ih]
      constructor
      · rintro ⟨here, rest, front, rfl, all⟩
        exact ⟨rest, segment :: front, rfl, .cons here all⟩
      · rintro ⟨rest, front, split, all⟩
        cases all with
        | cons here all =>
          cases split
          exact ⟨here, rest, _, rfl, all⟩

theorem Starts.rest_eq (starts : Starts preSegments segments rest) :
    rest = segments.drop preSegments.length := by
  obtain ⟨front, rfl, all⟩ := starts
  rw [all.length_eq, List.drop_left]

theorem Starts.length_le (starts : Starts preSegments segments rest) :
    preSegments.length ≤ segments.length := by
  obtain ⟨front, rfl, all⟩ := starts
  rw [all.length_eq, List.length_append]
  omega

/-- A URL that starts with the prefix is replaced by what is parsed from its remaining segments. -/
theorem trimUrl_of_starts (given : prePath ≠ [])
    (starts : Starts (clear (prePath.splitOn '/')) (clear (url.path.splitOn '/')) rest) :
    trimUrl url prePath = match parse (rest.flatMap ('/' :: ·)) with
      | some localUrl => (some localUrl, none)
      | none => (none, some .unparsable) := by
  have long := Nat.not_lt.mpr starts.length_le
  have agreed := agrees_iff.mpr ⟨rest, starts⟩
  simp only [trimUrl, given, if_false, long, agreed, Bool.not_true, Bool.false_eq_true, rejoin_eq,
    starts.rest_eq]

/-- Any other URL is refused and returned. -/
theorem trimUrl_of_not_starts (given : prePath ≠ [])
    (differs : ¬∃ rest, Starts (clear (prePath.splitOn '/')) (clear (url.path.splitOn '/')) rest) :
    ∃ format, trimUrl url prePath = (some url, some (.refused format)) := by
  rw [← agrees_iff, Bool.not_eq_true] at differs
  simp only [trimUrl, given, if_false, differs, Bool.not_false, if_true]
  split
  · exact ⟨_, rfl⟩
  · exact ⟨_, rfl⟩

end Trim

/-- `TrimUrl` succeeds exactly on URLs that start with the prefix, and returns the remaining
segments as the path, with the query of the URL. -/
def Intact (url : Reference) (prePath : List Char) : Prop :=
  ((trimUrl url prePath).2 = none ↔
    ∃ rest, Starts (clear (prePath.splitOn '/')) (clear (url.path.splitOn '/')) rest) ∧
  ∀ rest, Starts (clear (prePath.splitOn '/')) (clear (url.path.splitOn '/')) rest →
    ∃ localUrl, trimUrl url prePath = (some localUrl, none) ∧
      localUrl.path = rest.flatMap ('/' :: ·) ∧ localUrl.rawQuery = url.rawQuery

/-- The request stays intact exactly if it has no query and its remaining segments hold no control
byte, `%`, `?` or `#`, or it does not start with the prefix. -/
theorem trimUrl_intact_iff (url : Reference) (prePath : List Char) (given : prePath ≠ []) :
    Intact url prePath ↔
      ∀ rest, Starts (clear (prePath.splitOn '/')) (clear (url.path.splitOn '/')) rest →
        url.rawQuery = [] ∧ ∀ segment ∈ rest, ∀ ch ∈ segment, isPlain ch = true := by
  have plain_iff (rest : List (List Char)) : (∀ ch ∈ rest.flatMap ('/' :: ·), isPlain ch = true) ↔
      ∀ segment ∈ rest, ∀ ch ∈ segment, isPlain ch = true := by
    have slash : isPlain '/' = true := by decide
    simp only [List.forall_mem_flatMap, List.forall_mem_cons, slash, true_and]
  by_cases matched :
      ∃ rest, Starts (clear (prePath.splitOn '/')) (clear (url.path.splitOn '/')) rest
  · constructor
    · intro intact rest starts
      obtain ⟨localUrl, trimmed, path, query⟩ := intact.2 rest starts
      rw [trimUrl_of_starts given starts] at trimmed
      split at trimmed
      · next parsedUrl parsed =>
        obtain rfl : parsedUrl = localUrl := by simpa using trimmed
        have plain := plain_of_parse parsed path
        obtain ⟨again, parsed', -, noQuery⟩ := parse_plain plain
        obtain rfl : parsedUrl = again := Option.some.inj (parsed.symm.trans parsed')
        exact ⟨query.symm.trans noQuery, (plain_iff rest).mp plain⟩
      · cases trimmed
    · intro holds
      have trims (rest : List (List Char))
          (starts : Starts (clear (prePath.splitOn '/')) (clear (url.path.splitOn '/')) rest) :
          ∃ localUrl, trimUrl url prePath = (some localUrl, none) ∧
            localUrl.path = rest.flatMap ('/' :: ·) ∧ localUrl.rawQuery = url.rawQuery := by
        obtain ⟨noQuery, plain⟩ := holds rest starts
        obtain ⟨localUrl, parsed, path, query⟩ := parse_plain ((plain_iff rest).mpr plain)
        refine ⟨localUrl, ?_, path, query.trans noQuery.symm⟩
        rw [trimUrl_of_starts given starts, parsed]
      refine ⟨iff_of_true ?_ matched, trims⟩
      obtain ⟨rest, starts⟩ := matched
      obtain ⟨localUrl, trimmed, -⟩ := trims rest starts
      rw [trimmed]
  · obtain ⟨format, refused⟩ := trimUrl_of_not_starts given matched
    refine iff_of_true ⟨iff_of_false ?_ matched, fun rest starts => absurd ⟨rest, starts⟩ matched⟩
      fun rest starts => absurd ⟨rest, starts⟩ matched
    simp [refused]

/-- `/apis/*/proxy`. -/
def gatewayPrefix : List Char := "/apis/*/proxy".toList

/-- `/apis/east/proxy/api/v1/pods`. -/
def gatewayPods : Reference := { path := "/apis/east/proxy/api/v1/pods".toList }

/-- A list of all pods. -/
theorem trimUrl_intact_pods : Intact gatewayPods gatewayPrefix := by
  have plain : (((clear (gatewayPods.path.splitOn '/')).drop
      (clear (gatewayPrefix.splitOn '/')).length).all (·.all isPlain)) = true := by
    decide
  refine (trimUrl_intact_iff gatewayPods gatewayPrefix (by decide)).mpr fun rest starts => ?_
  rw [← starts.rest_eq] at plain
  exact ⟨rfl, fun segment member => List.all_eq_true.mp (List.all_eq_true.mp plain segment member)⟩

/-- A watch of all pods is resolved without `watch=true`. -/
theorem trimUrl_loses_query :
    ¬∀ (url : Reference) (prePath : List Char), prePath ≠ [] → Intact url prePath := by
  intro intact
  have watch := intact { gatewayPods with rawQuery := "watch=true".toList } gatewayPrefix
    (by decide)
  obtain ⟨localUrl, trimmed, -, query⟩ := watch.2 ["api".toList, "v1".toList, "pods".toList]
    ⟨["apis".toList, "east".toList, "proxy".toList], by decide,
      .cons (by decide) (.cons (by decide) (.cons (by decide) .nil))⟩
  have lost : trimUrl { gatewayPods with rawQuery := "watch=true".toList } gatewayPrefix =
      (some { path := "/api/v1/pods".toList }, none) := by decide
  rw [lost] at trimmed
  cases trimmed
  revert query
  decide

end CtrlMesh.Proxy
