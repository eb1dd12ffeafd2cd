import CivicConnect.ConsentApi.Handler
import CivicConnect.Library.PercentEncoding
import Mathlib.Data.List.TakeWhile

/-!
# How a request arrives

A client asks for a URL that it puts together from a base URL and a path. The
URL is parsed on the way, which resolves its dot segments, and the handler gets
what follows the origin. So a base URL has to be the origin itself: with a path
of its own, a slash at the end included, it asks for another path.
-/

namespace CivicConnect.ConsentApi

def isSingleDot (segment : List Char) : Bool := segment ∈ [".", "%2e", "%2E"].map String.toList

def isDoubleDot (segment : List Char) : Bool :=
  segment ∈ ["..", ".%2e", ".%2E", "%2e.", "%2E.", "%2e%2e", "%2e%2E", "%2E%2e",
    "%2E%2E"].map String.toList

/-- The path state of the URL parser, on the segments that are left and on those
that are done, the last of them first. -/
def resolveDots (done : List (List Char)) : List (List Char) → List (List Char)
  | [] => done.reverse
  | [last] =>
      if isDoubleDot last then ([] :: done.tail).reverse
      else if isSingleDot last then ([] :: done).reverse
      else (last :: done).reverse
  | segment :: next :: rest =>
      if isDoubleDot segment then resolveDots done.tail (next :: rest)
      else if isSingleDot segment then resolveDots done (next :: rest)
      else resolveDots (segment :: done) (next :: rest)

/-- `new URL(url).pathname` for what follows the origin of a URL. -/
def pathname (path : List Char) : String :=
  String.ofList ('/' :: ['/'].intercalate (resolveDots [] (path.splitOn '/').tail))

inductive Scheme where
  | http
  | https
  deriving DecidableEq, Repr

def Scheme.text : Scheme → String
  | http => "http"
  | https => "https"

/-- Where a server listens, as the beginning of its URLs. -/
structure Origin where
  scheme : Scheme
  authority : String
  authority_ne_empty : authority ≠ ""
  authority_plain : ∀ c ∈ authority.toList, c ∉ ['/', '?', '#', '\\', '@']
  deriving DecidableEq

def Origin.text (origin : Origin) : String := origin.scheme.text ++ "://" ++ origin.authority

/-- The path with which a request for the URL arrives at the server that listens
at the origin. -/
def arrivalPath (origin : Origin) (url : String) : Option String :=
  if origin.text.toList.isPrefixOf url.toList then
    match url.toList.drop origin.text.toList.length with
    | '/' :: rest =>
        some (pathname (('/' :: rest).takeWhile fun c => c ≠ '?' ∧ c ≠ '#'))
    | _ => none
  else none

/-- The path of some segments, each behind a slash. -/
def slashed (segments : List (List Char)) : List Char := segments.flatMap ('/' :: ·)

theorem slashed_append (segments segments' : List (List Char)) :
    slashed (segments ++ segments') = slashed segments ++ slashed segments' :=
  List.flatMap_append

theorem slashed_eq_intercalate (segments : List (List Char)) :
    slashed segments = ['/'].intercalate ([] :: segments) := by
  induction segments with
  | nil => rfl
  | cons segment rest ih =>
      have hcons : slashed (segment :: rest) = '/' :: segment ++ slashed rest := List.flatMap_cons
      rw [hcons, ih]
      cases rest with
      | nil => simp [List.intercalate]
      | cons next rest => simp [List.intercalate, List.intersperse]

theorem splitOn_slashed {segments : List (List Char)} (h : ∀ segment ∈ segments, '/' ∉ segment) :
    (slashed segments).splitOn '/' = [] :: segments := by
  rw [slashed_eq_intercalate]
  apply List.splitOn_intercalate
  · simpa using h
  · exact List.cons_ne_nil _ _

theorem resolveDots_ne_nil (done : List (List Char)) {segments : List (List Char)}
    (h : segments ≠ []) : resolveDots done segments ≠ [] := by
  fun_induction resolveDots done segments with
  | case1 => exact absurd rfl h
  | case2 => simp
  | case3 => simp
  | case4 => simp
  | case5 done segment next rest _ ih => exact ih (List.cons_ne_nil _ _)
  | case6 done segment next rest _ _ ih => exact ih (List.cons_ne_nil _ _)
  | case7 done segment next rest _ _ ih => exact ih (List.cons_ne_nil _ _)

/-- Segments that are no dots stay. -/
theorem resolveDots_append {plain rest : List (List Char)} (done : List (List Char))
    (hplain : ∀ segment ∈ plain, isDoubleDot segment = false ∧ isSingleDot segment = false)
    (hrest : rest ≠ []) :
    resolveDots done (plain ++ rest) = resolveDots (plain.reverse ++ done) rest := by
  induction plain generalizing done with
  | nil => rfl
  | cons segment plain ih =>
      obtain ⟨hdouble, hsingle⟩ := hplain segment List.mem_cons_self
      obtain ⟨next, more, hmore⟩ := List.exists_cons_of_ne_nil
        (List.append_ne_nil_of_right_ne_nil plain hrest)
      have hstep : resolveDots done (segment :: (plain ++ rest)) =
          resolveDots (segment :: done) (plain ++ rest) := by
        rw [hmore, resolveDots, if_neg (by simp [hdouble]), if_neg (by simp [hsingle])]
      rw [List.cons_append, hstep, ih _ fun s hs => hplain s (List.mem_cons_of_mem _ hs)]
      simp

theorem pathname_slashed {segments : List (List Char)} (hne : segments ≠ [])
    (h : ∀ segment ∈ segments, '/' ∉ segment) :
    pathname (slashed segments) = String.ofList (slashed (resolveDots [] segments)) := by
  rw [pathname, splitOn_slashed h, List.tail_cons, slashed_eq_intercalate]
  obtain ⟨first, rest, hrest⟩ := List.exists_cons_of_ne_nil (resolveDots_ne_nil [] hne)
  rw [hrest]
  simp [List.intercalate, List.intersperse]

/-- No character of the segment ends it or the path. -/
def InPath (segment : List Char) : Prop := ∀ c ∈ segment, c ≠ '/' ∧ c ≠ '?' ∧ c ≠ '#'

theorem arrivalPath_slashed (origin : Origin) {segments : List (List Char)} (hne : segments ≠ [])
    (h : ∀ segment ∈ segments, InPath segment) :
    arrivalPath origin (origin.text ++ String.ofList (slashed segments)) =
      some (String.ofList (slashed (resolveDots [] segments))) := by
  have hslash : ∀ segment ∈ segments, '/' ∉ segment :=
    fun segment hs hmem => (h segment hs _ hmem).1 rfl
  have hwhole : ((slashed segments).takeWhile fun c => c ≠ '?' ∧ c ≠ '#') = slashed segments := by
    rw [List.takeWhile_eq_self_iff]
    intro c hc
    obtain ⟨segment, hs, hc⟩ := List.mem_flatMap.mp hc
    rcases List.mem_cons.mp hc with rfl | hc
    · decide
    · simpa using (h segment hs c hc).2
  obtain ⟨first, rest, rfl⟩ := List.exists_cons_of_ne_nil hne
  have hcons : slashed (first :: rest) = '/' :: (first ++ slashed rest) := List.flatMap_cons
  rw [arrivalPath, if_pos (by simp), String.toList_append, String.toList_ofList, List.drop_left,
    hcons]
  change some (pathname (('/' :: (first ++ slashed rest)).takeWhile _)) = _
  rw [← hcons, hwhole, pathname_slashed hne hslash]

/-- A path that a URL carries as it is. -/
structure PlainPath where
  segments : List (List Char)
  segments_ne_nil : segments ≠ []
  unreserved : ∀ segment ∈ segments, ∀ c ∈ segment, PercentEncoding.unreserved c = true
  no_dots : ∀ segment ∈ segments, segment ∉ [".".toList, "..".toList]

namespace PlainPath

variable (path : PlainPath)

def text : String := String.ofList (slashed path.segments)

end PlainPath

theorem inPath_of_unreserved {segment : List Char}
    (h : ∀ c ∈ segment, PercentEncoding.unreserved c = true ∨ c = '%') : InPath segment := by
  intro c hc
  refine ⟨?_, ?_, ?_⟩
  all_goals
    rintro rfl
    exact absurd (h _ hc) (by decide)

theorem PlainPath.no_dot {path : PlainPath} {segment : List Char} (h : segment ∈ path.segments) :
    isDoubleDot segment = false ∧ isSingleDot segment = false := by
  have hpercent : '%' ∉ segment := by
    intro hmem
    exact absurd (path.unreserved segment h '%' hmem) (by decide)
  have hdots := path.no_dots segment h
  constructor
  · rw [Bool.eq_false_iff]
    intro hdouble
    have hcases : segment ∈ _ := of_decide_eq_true hdouble
    simp only [List.map_cons, List.map_nil, List.mem_cons, List.not_mem_nil, or_false] at hcases
    rcases hcases with rfl | rfl | rfl | rfl | rfl | rfl | rfl | rfl | rfl
    · exact hdots (by decide)
    all_goals exact hpercent (by decide)
  · rw [Bool.eq_false_iff]
    intro hsingle
    have hcases : segment ∈ _ := of_decide_eq_true hsingle
    simp only [List.map_cons, List.map_nil, List.mem_cons, List.not_mem_nil, or_false] at hcases
    rcases hcases with rfl | rfl | rfl
    · exact hdots (by decide)
    all_goals exact hpercent (by decide)

end CivicConnect.ConsentApi
