import LanWeave.Golang.Url
import LanWeave.Library.Segments

/-! The request multiplexer of net/http: a path that is not clean is redirected, any other is matched
segment by segment, and what stands for a wildcard is unescaped. -/

namespace LanWeave

/-- The bytes of a Go string. -/
def utf8 (s : String) : List UInt8 := s.toList.flatMap String.utf8EncodeChar

def hexValue (c : Char) : Option Nat :=
  if '0' ≤ c ∧ c ≤ '9' then some (c.toNat - 48)
  else if 'A' ≤ c ∧ c ≤ 'F' then some (c.toNat - 55)
  else if 'a' ≤ c ∧ c ≤ 'f' then some (c.toNat - 87)
  else none

def unescapeBytes : List Char → Option (List UInt8)
  | [] => some []
  | c :: cs =>
    if c = '%' then
      match cs with
      | a :: b :: cs =>
        (hexValue a).bind fun x => (hexValue b).bind fun y =>
          (unescapeBytes cs).map (UInt8.ofNat (16 * x + y) :: ·)
      | _ => none
    else (unescapeBytes cs).map (String.utf8EncodeChar c ++ ·)

/-- `url.PathUnescape`; what is not validly escaped stays as it is. -/
def pathUnescape (cs : List Char) : List UInt8 :=
  (unescapeBytes cs).getD (cs.flatMap String.utf8EncodeChar)

namespace Mux

inductive Segment
  | literal (s : String)
  | wildcard (name : String)
deriving DecidableEq

/-- A pattern; without a method it is for all of them. -/
structure Route (η : Type) where
  method : Option String
  pattern : List Segment
  handler : η

/-- What becomes of a request: `values` are the path values by their names. -/
inductive Served (η : Type)
  | redirected
  | notFound
  | handled (handler : η) (values : List (String × List UInt8))

def pathSegments (path : List Char) : List (List Char) := (path.splitOn '/').drop 1

/-- Nothing for `path.Clean` to do; one trailing slash stays. -/
def isClean (segs : List (List Char)) : Bool :=
  segs.all (fun s => s ≠ ['.'] ∧ s ≠ ['.', '.']) && segs.dropLast.all (fun s => s ≠ [])

namespace Segment

def fits : Segment → List Char → Bool
  | literal s, seg => pathUnescape seg = utf8 s
  | wildcard _, seg => seg ≠ []

def value : Segment → List Char → List (String × List UInt8)
  | literal _, _ => []
  | wildcard name, seg => [(name, pathUnescape seg)]

def apart : Segment → Segment → Bool
  | literal s, literal s' => utf8 s ≠ utf8 s'
  | _, _ => false

end Segment

def matchSegments : List Segment → List (List Char) → Option (List (String × List UInt8))
  | [], [] => some []
  | p :: ps, seg :: segs =>
    if p.fits seg then (matchSegments ps segs).map (p.value seg ++ ·) else none
  | _, _ => none

def Route.serves {η : Type} (r : Route η) (method : String) (segs : List (List Char)) :
    Option (List (String × List UInt8)) :=
  if r.method = none ∨ r.method = some method then matchSegments r.pattern segs else none

/-- The request goes to the route that serves it. -/
def serveHTTP {η : Type} (routes : List (Route η)) (method : String) (path : List Char) : Served η :=
  let segs := pathSegments path
  if isClean segs then
    match routes.findSome? fun r => (r.serves method segs).map fun values => (r.handler, values) with
    | some (handler, values) => .handled handler values
    | none => .notFound
  else .redirected

end Mux

theorem hexValue_upperHex {n : Nat} (h : n < 16) : hexValue (upperHex n) = some n := by
  have hall : ∀ n < 16, hexValue (upperHex n) = some n := by decide +kernel
  exact hall n h

theorem unescapeBytes_escapeByte (b : UInt8) (cs : List Char) :
    unescapeBytes (escapeByte b ++ cs) = (unescapeBytes cs).map (b :: ·) := by
  have hlt := b.toNat_lt
  have hbyte : UInt8.ofNat (16 * (b.toNat / 16) + b.toNat % 16) = b := by
    rw [Nat.div_add_mod, UInt8.ofNat_toNat]
  rw [escapeByte, List.cons_append, List.cons_append, List.cons_append, List.nil_append, unescapeBytes,
    if_pos rfl]
  simp only [hexValue_upperHex (n := b.toNat / 16) (by omega),
    hexValue_upperHex (n := b.toNat % 16) (by omega),
    Option.bind_some, hbyte]

theorem unescapeBytes_flatMap_escapeByte (bs : List UInt8) (cs : List Char) :
    unescapeBytes (bs.flatMap escapeByte ++ cs) = (unescapeBytes cs).map (bs ++ ·) := by
  induction bs with
  | nil => simp
  | cons b bs ih =>
    rw [List.flatMap_cons, List.append_assoc, unescapeBytes_escapeByte, ih, Option.map_map]
    rfl

theorem unescapeBytes_cons {c : Char} (hne : c ≠ '%') (cs : List Char) :
    unescapeBytes (c :: cs) = (unescapeBytes cs).map (String.utf8EncodeChar c ++ ·) := by
  rw [unescapeBytes.eq_def]
  simp only [hne, if_false]

theorem unescapeBytes_escapeChar (c : Char) (cs : List Char) :
    unescapeBytes (escapeChar c ++ cs) = (unescapeBytes cs).map (String.utf8EncodeChar c ++ ·) := by
  cases hc : unescaped c with
  | true =>
    have hne : c ≠ '%' := by
      rintro rfl
      exact absurd hc (by decide)
    rw [escapeChar, if_pos hc, List.singleton_append, unescapeBytes_cons hne]
  | false =>
    rw [escapeChar, hc, if_neg Bool.false_ne_true, unescapeBytes_flatMap_escapeByte]

theorem pathUnescape_pathEscape (s : String) : pathUnescape (pathEscape s).toList = utf8 s := by
  have hsome : ∀ cs : List Char,
      unescapeBytes (cs.flatMap escapeChar) = some (cs.flatMap String.utf8EncodeChar) := by
    intro cs
    induction cs with
    | nil => rfl
    | cons c cs ih =>
      rw [List.flatMap_cons, unescapeBytes_escapeChar, ih, List.flatMap_cons, Option.map_some]
  rw [pathUnescape, pathEscape, String.toList_ofList, hsome]
  rfl

namespace Mux

variable {η : Type} {r r' : Route η} {routes : List (Route η)} {method : String} {path : List Char}
  {segs : List (List Char)} {values : List (String × List UInt8)}

def patternsApart : List Segment → List Segment → Bool
  | [], [] => false
  | p :: ps, p' :: ps' => p.apart p' || patternsApart ps ps'
  | _, _ => true

def Route.apart (r r' : Route η) : Bool :=
  (r.method.isSome && r'.method.isSome && r.method ≠ r'.method) || patternsApart r.pattern r'.pattern

theorem Segment.not_fits_of_apart {p p' : Segment} {seg : List Char} (h : p.apart p' = true)
    (hfits : p.fits seg = true) : p'.fits seg = false := by
  cases p with
  | wildcard name => exact absurd h Bool.false_ne_true
  | literal s =>
    cases p' with
    | wildcard name => exact absurd h Bool.false_ne_true
    | literal s' =>
      have hbytes := of_decide_eq_true hfits
      have hdiffer := of_decide_eq_true h
      exact decide_eq_false (hbytes ▸ hdiffer)

theorem not_match_of_apart {ps ps' : List Segment} (h : patternsApart ps ps' = true)
    (hmatch : (matchSegments ps segs).isSome = true) : matchSegments ps' segs = none := by
  induction ps generalizing ps' segs with
  | nil =>
    cases segs with
    | cons seg segs => exact absurd hmatch Bool.false_ne_true
    | nil =>
      cases ps' with
      | nil => exact absurd h Bool.false_ne_true
      | cons p' ps' => rfl
  | cons p ps ih =>
    cases segs with
    | nil => exact absurd hmatch Bool.false_ne_true
    | cons seg segs =>
      cases ps' with
      | nil => rfl
      | cons p' ps' =>
        rw [matchSegments] at hmatch ⊢
        split_ifs at hmatch with hfits
        · rw [Option.isSome_map] at hmatch
          rw [patternsApart, Bool.or_eq_true] at h
          rcases h with hhead | htail
          · rw [Segment.not_fits_of_apart hhead hfits, if_neg Bool.false_ne_true]
          · rw [ih htail hmatch, Option.map_none, ite_self]
        · exact absurd hmatch Bool.false_ne_true

theorem not_serves_of_apart (h : r.apart r' = true) (hserves : (r.serves method segs).isSome = true) :
    r'.serves method segs = none := by
  unfold Route.serves at hserves ⊢
  split_ifs at hserves with hmethod
  · split_ifs with hmethod'
    · rw [Route.apart, Bool.or_eq_true] at h
      rcases h with hmethods | hpatterns
      · simp only [Bool.and_eq_true, decide_eq_true_eq] at hmethods
        obtain ⟨⟨hsome, hsome'⟩, hdiffer⟩ := hmethods
        have heq : ∀ m : Option String, m.isSome = true → m = none ∨ m = some method →
          m = some method := by
          intro m hm hcase
          rcases hcase with rfl | hcase
          · cases hm
          · exact hcase
        rw [heq _ hsome hmethod, heq _ hsome' hmethod'] at hdiffer
        exact absurd rfl hdiffer
      · exact not_match_of_apart hpatterns hserves
    · rfl
  · exact absurd hserves Bool.false_ne_true

/-- Where the routes exclude one another, the one that serves a request is found. -/
theorem serveHTTP_of_mem (hclean : isClean (pathSegments path) = true)
    (hapart : routes.Pairwise fun r r' => r.apart r' = true ∧ r'.apart r = true) (hr : r ∈ routes)
    (hserves : r.serves method (pathSegments path) = some values) :
    serveHTTP routes method path = .handled r.handler values := by
  have hfind : (routes.findSome? fun r =>
      (r.serves method (pathSegments path)).map fun values => (r.handler, values)) =
        some (r.handler, values) := by
    induction routes with
    | nil => cases hr
    | cons r' routes ih =>
      rw [List.pairwise_cons] at hapart
      rcases List.mem_cons.mp hr with rfl | hr
      · rw [List.findSome?_cons, hserves]
        rfl
      · have hnot : r'.serves method (pathSegments path) = none :=
          not_serves_of_apart (hapart.1 r hr).2 (by rw [hserves]; rfl)
        rw [List.findSome?_cons, hnot]
        exact ih hapart.2 hr
  simp only [serveHTTP, hclean, if_true, hfind]

theorem serveHTTP_of_not_clean (hclean : isClean (pathSegments path) = false) :
    serveHTTP routes method path = .redirected := by
  simp [serveHTTP, hclean]

/-- The values of the wildcards, for the texts that stand for them. -/
def matchTexts : List Segment → List String → Option (List (String × List UInt8))
  | [], [] => some []
  | .literal s :: ps, text :: texts => if text = s then matchTexts ps texts else none
  | .wildcard name :: ps, text :: texts => (matchTexts ps texts).map ((name, utf8 text) :: ·)
  | _, _ => none

theorem pathEscape_ne_nil {text : String} (h : text ≠ "") : (pathEscape text).toList ≠ [] := by
  rw [Ne, pathEscape_eq rfl]
  intro hnil
  exact h (String.toList_injective hnil)

theorem matchSegments_escaped {ps : List Segment} {texts : List String} (hne : ∀ t ∈ texts, t ≠ "")
    (h : matchTexts ps texts = some values) :
    matchSegments ps (texts.map fun t => (pathEscape t).toList) = some values := by
  induction ps generalizing texts values with
  | nil =>
    cases texts with
    | nil => exact h
    | cons text texts => cases h
  | cons p ps ih =>
    cases texts with
    | nil => cases p <;> cases h
    | cons text texts =>
      have hrest : ∀ t ∈ texts, t ≠ "" := fun t ht => hne t (List.mem_cons_of_mem _ ht)
      rw [List.map_cons, matchSegments]
      cases p with
      | literal s =>
        simp only [matchTexts] at h
        split_ifs at h with htext
        simp [Segment.fits, Segment.value, pathUnescape_pathEscape, htext, ih hrest h]
      | wildcard name =>
        simp only [matchTexts, Option.map_eq_some_iff] at h
        obtain ⟨rest, hmatch, rfl⟩ := h
        simp [Segment.fits, Segment.value, pathUnescape_pathEscape, ih hrest hmatch,
          pathEscape_ne_nil (hne text List.mem_cons_self)]

theorem joinSegments_eq_intercalate (segs : List (List Char)) :
    Library.joinSegments '/' segs = ['/'].intercalate ([] :: segs) := by
  induction segs with
  | nil => rfl
  | cons seg segs ih =>
    cases segs with
    | nil => simp [Library.joinSegments]
    | cons seg' segs =>
      rw [Library.joinSegments_cons, ih]
      simp [List.intercalate_cons_cons]

theorem pathSegments_joinSegments (hslash : ∀ seg ∈ segs, '/' ∉ seg) :
    pathSegments (Library.joinSegments '/' segs) = segs := by
  rw [pathSegments, joinSegments_eq_intercalate, List.splitOn_intercalate]
  · rfl
  · intro seg hseg
    rcases List.mem_cons.mp hseg with rfl | hseg
    · exact List.not_mem_nil
    · exact hslash seg hseg
  · exact List.cons_ne_nil _ _

/-- An escaped segment is a dot segment where its text is one. -/
theorem isClean_escaped_iff {texts : List String} (hne : ∀ t ∈ texts, t ≠ "") :
    isClean (texts.map fun t => (pathEscape t).toList) = true ↔ ∀ t ∈ texts, t ≠ "." ∧ t ≠ ".." := by
  have hdot (t : String) : (pathEscape t).toList = ['.'] ↔ t = "." := by
    rw [pathEscape_eq rfl]
    exact ⟨fun h => String.toList_injective h, fun h => h ▸ rfl⟩
  have hdots (t : String) : (pathEscape t).toList = ['.', '.'] ↔ t = ".." := by
    rw [pathEscape_eq rfl]
    exact ⟨fun h => String.toList_injective h, fun h => h ▸ rfl⟩
  have hfilled : ((texts.map fun t => (pathEscape t).toList).dropLast.all fun s => s ≠ []) = true := by
    rw [List.all_eq_true]
    intro s hs
    obtain ⟨t, ht, rfl⟩ := List.mem_map.mp (List.mem_of_mem_dropLast hs)
    exact decide_eq_true (pathEscape_ne_nil (hne t ht))
  rw [isClean, hfilled, Bool.and_true, List.all_eq_true]
  constructor
  · intro h t ht
    have hseg := of_decide_eq_true (h _ (List.mem_map_of_mem ht))
    exact ⟨fun heq => hseg.1 ((hdot t).mpr heq), fun heq => hseg.2 ((hdots t).mpr heq)⟩
  · intro h s hs
    obtain ⟨t, ht, rfl⟩ := List.mem_map.mp hs
    apply decide_eq_true
    exact ⟨fun heq => (h t ht).1 ((hdot t).mp heq), fun heq => (h t ht).2 ((hdots t).mp heq)⟩

end Mux

end LanWeave
