import LanWeave.Library.Argv
import Mathlib.Data.List.Count

/-! The arguments of the client across its relaunch as administrator: one command line, which the
relaunched process splits again. -/

open LanWeave.Library.Argv

namespace LanWeave

/-- `strings.ReplaceAll` of a double quote by an escaped one. -/
def escapeQuotes (arg : List Char) : List Char :=
  arg.flatMap fun c => if c = '"' then ['\\', '"'] else [c]

/-- `strings.ContainsAny(arg, " \t\"")`. -/
def containsAny (arg : List Char) : Bool := arg.any fun c => c = ' ' || c = '\t' || c = '"'

def quoteArg (arg : List Char) : List Char :=
  if arg ≠ [] ∧ containsAny arg = false then arg else '"' :: (escapeQuotes arg ++ ['"'])

def commandLine (args : List String) : String :=
  String.ofList ([' '].intercalate (args.map fun a => quoteArg a.toList))

/-- The arguments the relaunched process sees. -/
def relaunched (line : String) : List String := (splitArgs line.toList).map String.ofList

example : commandLine ["--config", "C:\\Program Files\\lanweave"] =
    "--config \"C:\\Program Files\\lanweave\"" := by decide
example : relaunched "--config \"C:\\Program Files\\lanweave\"" =
    ["--config", "C:\\Program Files\\lanweave"] := by decide

section
variable {m : Mode} {n : ℕ} {z : List Char}

theorem escapeQuotes_quote : escapeQuotes ('"' :: z) = '\\' :: '"' :: escapeQuotes z := rfl

theorem escapeQuotes_cons {c : Char} (h : c ≠ '"') : escapeQuotes (c :: z) = c :: escapeQuotes z := by
  simp [escapeQuotes, h]

/-- The backslashes that are held back. -/
def pending : Mode → ℕ
  | .unquoted n => n
  | .quoted n => n
  | .between => 0
  | .closing => 0

/-- An escaped quote is not taken for the second one of a pair. -/
theorem scan_closing (h : z ≠ []) :
    scan .closing (escapeQuotes z ++ ['"']) = scan (.unquoted 0) (escapeQuotes z ++ ['"']) := by
  cases z with
  | nil => exact absurd rfl h
  | cons c z =>
    by_cases hc : c = '"'
    · subst hc
      rfl
    · rw [escapeQuotes_cons hc, List.cons_append, scan, scan, step_closing_of_ne hc]

/-- Reading an argument up to its closing quote emits at most its characters, and keeps its spaces as
long as it does not end an argument. -/
structure Frugal (m : Mode) (z : List Char) (emitted : List Token) : Prop where
  length_le : emitted.length ≤ pending m + z.length
  spaces : m ≠ .between → none ∉ emitted → emitted.count (some ' ') = z.count ' '

theorem Frugal.cons {m' : Mode} {c : Char} {lead e : List Token} (he : Frugal m' z e)
    (hlen : lead.length + pending m' ≤ pending m + 1)
    (hspaces : none ∉ lead → m' ≠ .between ∧ lead.count (some ' ') = [c].count ' ') :
    Frugal m (c :: z) (lead ++ e) where
  length_le := by
    have hrest := he.length_le
    rw [List.length_append, List.length_cons]
    omega
  spaces := by
    intro _ hnone
    rw [List.mem_append, not_or] at hnone
    obtain ⟨hm', hlead⟩ := hspaces hnone.1
    have hcons : (c :: z).count ' ' = [c].count ' ' + z.count ' ' := by
      rw [← List.count_append, List.singleton_append]
    rw [List.count_append, hlead, he.spaces hm' hnone.2, hcons]

theorem frugal_nil (hm : m ≠ .closing) : Frugal m [] (step m '"').1 := by
  cases m with
  | between => exact ⟨Nat.le_refl 0, fun h => absurd rfl h⟩
  | closing => exact absurd rfl hm
  | unquoted n =>
    rw [step_unquoted_quote, quoteStep]
    split_ifs with hodd
    · exact ⟨by simp [pending]; omega, by simp⟩
    · exact ⟨by simp [pending]; omega, by simp⟩
  | quoted n =>
    rw [step_quoted_quote, quoteStep]
    split_ifs with hodd
    · exact ⟨by simp [pending]; omega, by simp⟩
    · exact ⟨by simp [pending]; omega, by simp⟩

theorem frugal_unquoted {c : Char}
    (ih : ∀ m, m ≠ .closing → Frugal m z (scan m (escapeQuotes z ++ ['"'])).1) :
    Frugal (.unquoted n) (c :: z) (scan (.unquoted n) (escapeQuotes (c :: z) ++ ['"'])).1 := by
  by_cases hquote : c = '"'
  · subst hquote
    rw [escapeQuotes_quote, List.cons_append, List.cons_append, scan, scan, step_unquoted_slash,
      List.nil_append, step_unquoted_quote, quoteStep]
    split_ifs with hodd
    · exact (ih (.unquoted 0) Mode.noConfusion).cons (by simp [pending]; omega) (by simp)
    · exact (ih (.quoted 0) Mode.noConfusion).cons (by simp [pending]; omega) (by simp)
  · rw [escapeQuotes_cons hquote, List.cons_append, scan]
    by_cases hslash : c = '\\'
    · subst hslash
      exact (ih (.unquoted (n + 1)) Mode.noConfusion).cons (by simp [pending]) (by simp)
    · by_cases hblank : c = ' ' ∨ c = '\t'
      · rw [step_unquoted_blank hblank]
        exact (ih .between Mode.noConfusion).cons (by simp [pending]) (by simp)
      · rw [step_unquoted_other hslash hquote hblank]
        have hspace : c ≠ ' ' := fun heq => hblank (.inl heq)
        exact (ih (.unquoted 0) Mode.noConfusion).cons (by simp [pending]) (by simp [hspace])

theorem frugal_quoted {c : Char}
    (ih : ∀ m, m ≠ .closing → Frugal m z (scan m (escapeQuotes z ++ ['"'])).1) :
    Frugal (.quoted n) (c :: z) (scan (.quoted n) (escapeQuotes (c :: z) ++ ['"'])).1 := by
  by_cases hquote : c = '"'
  · subst hquote
    rw [escapeQuotes_quote, List.cons_append, List.cons_append, scan, scan, step_quoted_slash,
      List.nil_append, step_quoted_quote, quoteStep]
    split_ifs with hodd
    · exact (ih (.quoted 0) Mode.noConfusion).cons (by simp [pending]; omega) (by simp)
    · -- the quote is taken for a closing one, and what follows is scan outside of quotes
      by_cases hz : z = []
      · subst hz
        exact ⟨by simp [escapeQuotes, scan, step, pending]; omega, by simp [escapeQuotes, scan, step]⟩
      · rw [scan_closing hz]
        exact (ih (.unquoted 0) Mode.noConfusion).cons (by simp [pending]; omega) (by simp)
  · rw [escapeQuotes_cons hquote, List.cons_append, scan]
    by_cases hslash : c = '\\'
    · subst hslash
      exact (ih (.quoted (n + 1)) Mode.noConfusion).cons (by simp [pending]) (by simp)
    · rw [step_quoted_other hslash hquote]
      exact (ih (.quoted 0) Mode.noConfusion).cons (by simp [pending]) (by simp [List.count_cons])

theorem frugal_scan (hm : m ≠ .closing) : Frugal m z (scan m (escapeQuotes z ++ ['"'])).1 := by
  induction z generalizing m with
  | nil =>
    rw [escapeQuotes, List.flatMap_nil, List.nil_append, scan, scan, List.append_nil]
    exact frugal_nil hm
  | cons c z ih =>
    cases m with
    | closing => exact absurd rfl hm
    | unquoted n => exact frugal_unquoted fun m => ih
    | quoted n => exact frugal_quoted fun m => ih
    | between =>
      by_cases hblank : c = ' ' ∨ c = '\t'
      · have hquote : c ≠ '"' := by
          rcases hblank with rfl | rfl
          · decide
          · decide
        rw [escapeQuotes_cons hquote, List.cons_append, scan]
        simp only [step, hblank, if_true, List.nil_append]
        have hrest := (ih Mode.noConfusion : Frugal .between z _).length_le
        exact ⟨by rw [List.length_cons]; omega, fun h => absurd rfl h⟩
      · have hsame : scan .between (escapeQuotes (c :: z) ++ ['"']) =
            scan (.unquoted 0) (escapeQuotes (c :: z) ++ ['"']) := by
          by_cases hquote : c = '"'
          · subst hquote
            rfl
          · rw [escapeQuotes_cons hquote, List.cons_append, scan, scan, step_between_of_not hblank]
        rw [hsame]
        have hrest := (frugal_unquoted fun m => ih : Frugal (.unquoted 0) (c :: z) _).length_le
        exact ⟨hrest, fun h => absurd rfl h⟩

/-- No backslash stands right before a double quote or at the end, but for a single one before a
quote that ends the argument. -/
structure Survives (arg : List Char) : Prop where
  last : arg.getLast? ≠ some '\\'
  inner : ∀ u v, arg = u ++ '\\' :: '"' :: v → v = [] ∧ u.getLast? ≠ some '\\'

/-- The same after `n` backslashes, character by character. -/
def SurvivesAfter : ℕ → List Char → Prop
  | n, [] => n = 0
  | n, c :: z =>
    if c = '\\' then SurvivesAfter (n + 1) z
    else if c = '"' then (n = 0 ∧ SurvivesAfter 0 z) ∨ (n = 1 ∧ z = [])
    else SurvivesAfter 0 z

theorem survives_cons {c : Char} (hc : c ≠ '\\') : Survives (c :: z) ↔ Survives z := by
  constructor
  · intro h
    constructor
    · intro hlast
      apply h.last
      cases z with
      | nil => cases hlast
      | cons d z => rwa [List.getLast?_cons_cons]
    · intro u v hz
      obtain ⟨hv, hu⟩ := h.inner (c :: u) v (by rw [hz, List.cons_append])
      refine ⟨hv, fun hlast => hu ?_⟩
      cases u with
      | nil => cases hlast
      | cons d u => rwa [List.getLast?_cons_cons]
  · intro h
    constructor
    · intro hlast
      cases z with
      | nil => exact hc (Option.some.inj hlast)
      | cons d z => exact h.last (by rwa [List.getLast?_cons_cons] at hlast)
    · intro u v hz
      cases u with
      | nil => exact absurd (List.cons.inj hz).1 hc
      | cons d u =>
        obtain ⟨rfl, htail⟩ := List.cons.inj hz
        obtain ⟨hv, hu⟩ := h.inner u v htail
        refine ⟨hv, fun hlast => ?_⟩
        cases u with
        | nil => exact hc (Option.some.inj hlast)
        | cons d' u => exact hu (by rwa [List.getLast?_cons_cons] at hlast)

theorem getLast?_append_of_ne {u w : List Char} (hw : w ≠ []) : (u ++ w).getLast? = w.getLast? := by
  rw [List.getLast?_append, List.getLast?_eq_some_getLast hw, Option.some_or]

theorem survives_slashes {c : Char} (hslash : c ≠ '\\') (hquote : c ≠ '"') :
    Survives (List.replicate n '\\' ++ c :: z) ↔ Survives (c :: z) := by
  have hstart : ∀ u v : List Char, c :: z = u ++ '\\' :: '"' :: v → u ≠ [] := by
    intro u v hz hu
    rw [hu, List.nil_append] at hz
    exact hslash (List.cons.inj hz).1
  constructor
  · intro h
    constructor
    · rw [← getLast?_append_of_ne (u := List.replicate n '\\') (List.cons_ne_nil c z)]
      exact h.last
    · intro u v hz
      obtain ⟨hv, hu⟩ := h.inner (List.replicate n '\\' ++ u) v (by rw [hz, List.append_assoc])
      rw [getLast?_append_of_ne (hstart u v hz)] at hu
      exact ⟨hv, hu⟩
  · intro h
    constructor
    · rw [getLast?_append_of_ne (List.cons_ne_nil c z)]
      exact h.last
    · intro u v hz
      rcases List.append_eq_append_iff.mp hz with ⟨w, rfl, hw⟩ | ⟨w, hw, hquoted⟩
      · obtain ⟨hv, hu⟩ := h.inner w v hw
        rw [getLast?_append_of_ne (hstart w v hw)]
        exact ⟨hv, hu⟩
      · -- the pair does not begin among the backslashes
        cases w with
        | nil => exact absurd (List.cons.inj hquoted).1.symm hslash
        | cons d w =>
          obtain ⟨-, hquoted⟩ := List.cons.inj hquoted
          cases w with
          | nil => exact absurd (List.cons.inj hquoted).1.symm hquote
          | cons d' w =>
            obtain ⟨hd', -⟩ := List.cons.inj hquoted
            have hmem : d' ∈ List.replicate n '\\' := by simp [hw]
            have heq := List.eq_of_mem_replicate hmem
            rw [heq] at hd'
            exact absurd hd' (by decide)

theorem survives_slashes_quote :
    Survives (List.replicate (n + 1) '\\' ++ '"' :: z) ↔ n = 0 ∧ z = [] := by
  constructor
  · intro h
    obtain ⟨hz, hlast⟩ := h.inner (List.replicate n '\\') z (by simp [List.replicate_succ'])
    refine ⟨?_, hz⟩
    by_contra hn
    exact hlast (by simp [List.getLast?_replicate, hn])
  · intro h
    obtain ⟨rfl, rfl⟩ := h
    constructor
    · decide
    · intro u v hz
      cases u with
      | nil => exact ⟨(List.cons.inj (List.cons.inj hz).2).2.symm, by decide⟩
      | cons d u =>
        have hlen := congrArg List.length hz
        simp at hlen
        omega

theorem survivesAfter_iff : SurvivesAfter n z ↔ Survives (List.replicate n '\\' ++ z) := by
  induction z generalizing n with
  | nil =>
    rw [SurvivesAfter, List.append_nil]
    constructor
    · intro hn
      subst hn
      exact ⟨by decide, fun u v h => by simp at h⟩
    · intro h
      by_contra hn
      exact h.last (by simp [List.getLast?_replicate, hn])
  | cons c z ih =>
    rw [SurvivesAfter]
    split_ifs with hslash hquote
    · subst hslash
      rw [ih, List.replicate_succ', List.append_assoc, List.singleton_append]
    · subst hquote
      cases n with
      | zero => simp [ih, survives_cons hslash]
      | succ n => simp [survives_slashes_quote]
    · rw [survives_slashes hslash hquote, survives_cons hslash, ih]
      rfl

theorem scan_of_survivesAfter (h : SurvivesAfter n z) :
    (scan (.quoted n) (escapeQuotes z ++ ['"'])).1 = slashes n ++ z.map some ∧
      ((scan (.quoted n) (escapeQuotes z ++ ['"'])).2 = .closing ∨
        (scan (.quoted n) (escapeQuotes z ++ ['"'])).2 = .unquoted 0) := by
  induction z generalizing n with
  | nil =>
    have hn : n = 0 := h
    subst hn
    exact ⟨rfl, .inl rfl⟩
  | cons c z ih =>
    rw [SurvivesAfter] at h
    by_cases hslash : c = '\\'
    · subst hslash
      rw [if_pos rfl] at h
      obtain ⟨hem, hmode⟩ := ih h
      rw [escapeQuotes_cons (by decide), List.cons_append, scan, step_quoted_slash]
      refine ⟨?_, hmode⟩
      rw [List.nil_append, hem, slashes_succ, List.append_assoc]
      rfl
    · rw [if_neg hslash] at h
      by_cases hquote : c = '"'
      · subst hquote
        rw [if_pos rfl] at h
        rcases h with ⟨rfl, hz⟩ | ⟨rfl, rfl⟩
        · obtain ⟨hem, hmode⟩ := ih hz
          rw [escapeQuotes_quote, List.cons_append, List.cons_append, scan, scan, step_quoted_slash,
            List.nil_append, step_quoted_quote]
          exact ⟨congrArg (some '"' :: ·) hem, hmode⟩
        · exact ⟨rfl, .inr rfl⟩
      · rw [if_neg hquote] at h
        obtain ⟨hem, hmode⟩ := ih h
        rw [escapeQuotes_cons hquote, List.cons_append, scan, step_quoted_other hslash hquote]
        refine ⟨?_, hmode⟩
        simp [hem]

/-- Nothing that is lost on the way to the closing quote is made up for. -/
theorem survivesAfter_of_scan
    (h : (scan (.quoted n) (escapeQuotes z ++ ['"'])).1 = slashes n ++ z.map some) :
    SurvivesAfter n z := by
  -- n is the number of backslashes held back when the rest is read
  induction z generalizing n with
  | nil =>
    simp only [escapeQuotes, List.flatMap_nil, List.nil_append, scan, List.append_nil, List.map_nil,
      step_quoted_quote, quoteStep] at h
    have hlen := congrArg List.length h
    split_ifs at h hlen with hodd
    · -- the quote stands where a backslash should
      simp only [List.length_append, length_slashes, List.length_singleton] at hlen
      have hn : n = 1 := by omega
      subst hn
      exact absurd h (by decide)
    · simp only [length_slashes] at hlen
      exact show n = 0 by omega
  | cons c z ih =>
    rw [SurvivesAfter]
    by_cases hslash : c = '\\'
    · subst hslash
      rw [if_pos rfl]
      apply ih
      rw [escapeQuotes_cons (by decide), List.cons_append, scan, step_quoted_slash, List.nil_append] at h
      rw [h, slashes_succ, List.append_assoc]
      rfl
    · rw [if_neg hslash]
      by_cases hquote : c = '"'
      · subst hquote
        rw [if_pos rfl]
        rw [escapeQuotes_quote, List.cons_append, List.cons_append, scan, scan, step_quoted_slash,
          List.nil_append, step_quoted_quote, quoteStep] at h
        have hlen := congrArg List.length h
        split_ifs at h hlen with hodd
        · have hrest := (frugal_scan Mode.noConfusion : Frugal (.quoted 0) z _).length_le
          simp only [List.length_append, length_slashes, List.length_map, List.length_cons,
            List.length_nil, pending] at hlen hrest
          have hn : n = 0 := by omega
          subst hn
          have htail := (List.cons.inj h).2
          exact .inl ⟨rfl, ih htail⟩
        · by_cases hz : z = []
          · subst hz
            simp [escapeQuotes, scan, step] at hlen
            exact .inr ⟨by omega, rfl⟩
          · rw [scan_closing hz] at hlen
            -- what is read is no longer than what is written, and one character has been lost
            -- already
            have hrest := (frugal_scan Mode.noConfusion : Frugal (.unquoted 0) z _).length_le
            simp only [List.length_append, length_slashes, List.length_map, List.length_cons,
              pending] at hlen hrest
            omega
      · rw [if_neg hquote]
        apply ih
        rw [escapeQuotes_cons hquote, List.cons_append, scan, step_quoted_other hslash hquote,
          List.append_assoc] at h
        have htail := List.append_cancel_left h
        exact (List.cons.inj htail).2

end

section
variable {a : List Char} {as : List (List Char)} {n : ℕ}

def lineOf (args : List (List Char)) : List Char := [' '].intercalate (args.map quoteArg)

/-- What follows an argument on the line. -/
def lineAfter (as : List (List Char)) : List Char := if as = [] then [] else ' ' :: lineOf as

theorem lineOf_cons : lineOf (a :: as) = quoteArg a ++ lineAfter as := by
  cases as with
  | nil => simp [lineOf, lineAfter]
  | cons b bs => simp [lineOf, lineAfter, List.intercalate_cons_cons]

theorem tokens_unquoted_lineAfter :
    tokens (.unquoted n) (lineAfter as) = slashes n ++ none :: tokens .between (lineOf as) := by
  unfold lineAfter
  split_ifs with has
  · subst has
    rfl
  · rw [tokens, step_unquoted_blank (.inl rfl), List.append_assoc]
    rfl

theorem tokens_closing_lineAfter :
    tokens .closing (lineAfter as) = none :: tokens .between (lineOf as) := by
  unfold lineAfter
  split_ifs with has
  · subst has
    rfl
  · rfl

/-- Once the quotes are closed, or wrongly open, the line goes on with the end of the argument or with
a space. -/
theorem tokens_lineAfter {m : Mode} (hm : m = .unquoted 0 ∨ m = .quoted 0 ∨ m = .closing) :
    ∃ x ts, tokens m (lineAfter as) = x :: ts ∧ (x = none ∨ x = some ' ') := by
  rcases hm with rfl | rfl | rfl
  · exact ⟨none, _, tokens_unquoted_lineAfter, .inl rfl⟩
  · unfold lineAfter
    split_ifs with has
    · exact ⟨none, [], rfl, .inl rfl⟩
    · exact ⟨some ' ', _, rfl, .inr rfl⟩
  · exact ⟨none, _, tokens_closing_lineAfter, .inl rfl⟩

theorem containsAny_cons {c : Char} :
    containsAny (c :: a) = false ↔ (c ≠ ' ' ∧ c ≠ '\t' ∧ c ≠ '"') ∧ containsAny a = false := by
  simp [containsAny, and_assoc]

theorem tokens_plain (h : containsAny a = false) :
    tokens (.unquoted n) (a ++ lineAfter as) =
      slashes n ++ (a.map some ++ none :: tokens .between (lineOf as)) := by
  induction a generalizing n with
  | nil => exact tokens_unquoted_lineAfter
  | cons c a ih =>
    obtain ⟨⟨hspace, htab, hquote⟩, hrest⟩ := containsAny_cons.mp h
    rw [List.cons_append, tokens]
    by_cases hslash : c = '\\'
    · subst hslash
      rw [step_unquoted_slash, List.nil_append, ih hrest, slashes_succ, List.append_assoc]
      rfl
    · have hblank : ¬(c = ' ' ∨ c = '\t') := not_or.mpr ⟨hspace, htab⟩
      rw [step_unquoted_other hslash hquote hblank, ih hrest, List.append_assoc]
      rfl

theorem tokens_between_plain (hne : a ≠ []) (h : containsAny a = false) :
    tokens .between (a ++ lineAfter as) = a.map some ++ none :: tokens .between (lineOf as) := by
  have hplain := @tokens_plain a as 0 h
  rw [slashes_zero, List.nil_append] at hplain
  cases a with
  | nil => exact absurd rfl hne
  | cons c a =>
    obtain ⟨⟨hspace, htab, -⟩, -⟩ := containsAny_cons.mp h
    rw [List.cons_append, tokens, step_between_of_not (not_or.mpr ⟨hspace, htab⟩)]
    exact hplain

/-- An argument between quotes comes back, and with it the rest, exactly where it survives: a space of
the line would be one space too many. -/
theorem tokens_quoted_iff :
    tokens (.quoted 0) ((escapeQuotes a ++ ['"']) ++ lineAfter as) = a.map some ++ none :: spelled as ↔
      Survives a ∧ tokens .between (lineOf as) = spelled as := by
  have hsurvives : SurvivesAfter 0 a ↔ Survives a := survivesAfter_iff
  rw [tokens_append, ← hsurvives]
  constructor
  · intro h
    have hfrugal : Frugal (.quoted 0) a _ := frugal_scan Mode.noConfusion
    -- what follows an argument begins with its end or with a space
    have hmode : ∃ x ts, tokens (scan (.quoted 0) (escapeQuotes a ++ ['"'])).2 (lineAfter as) = x :: ts ∧
        (x = none ∨ x = some ' ') := by
      rw [scan_append_singleton]
      exact tokens_lineAfter (step_quote _)
    have hem : (scan (.quoted 0) (escapeQuotes a ++ ['"'])).1 = a.map some := by
      rcases List.append_eq_append_iff.mp h with ⟨w, hw, hrest⟩ | ⟨w, hw, -⟩
      · obtain ⟨x, ts, hx, hcase⟩ := hmode
        rw [hx] at hrest
        cases w with
        | nil => rw [hw, List.append_nil]
        | cons y w =>
          have hy := (List.cons.inj hrest).1
          have hmem : x ∈ a.map some := by rw [hw, hy]; simp
          obtain ⟨c, -, rfl⟩ := List.mem_map.mp hmem
          have hspace : some c = some ' ' := hcase.resolve_left (by simp)
          have hnone : none ∉ (scan (.quoted 0) (escapeQuotes a ++ ['"'])).1 := by
            intro hnone
            have hin : none ∈ a.map some := hw ▸ List.mem_append_left _ hnone
            simp at hin
          -- the closing quote was taken for text, so the space after it is counted with the
          -- argument
          have hcount := congrArg (List.count (some ' ')) hw
          rw [List.count_append, hfrugal.spaces Mode.noConfusion hnone, ← hy, hspace,
            List.count_cons_self, List.count_map_of_injective a some fun _ _ =>
              Option.some.inj] at hcount
          omega
      · have hlen := congrArg List.length hw
        have hle := hfrugal.length_le
        simp only [List.length_append, List.length_map, pending] at hlen hle
        have hnil : w = [] := List.eq_nil_of_length_eq_zero (by omega)
        rw [hw, hnil, List.append_nil]
    have hsurv : SurvivesAfter 0 a := survivesAfter_of_scan hem
    refine ⟨hsurv, ?_⟩
    rw [hem] at h
    have hrest := List.append_cancel_left h
    rcases (scan_of_survivesAfter hsurv).2 with hclosing | hunquoted
    · rw [hclosing, tokens_closing_lineAfter] at hrest
      exact (List.cons.inj hrest).2
    · rw [hunquoted, tokens_unquoted_lineAfter] at hrest
      exact (List.cons.inj hrest).2
  · intro h
    obtain ⟨hsurv, hrest⟩ := h
    obtain ⟨hem, hmode⟩ := scan_of_survivesAfter hsurv
    rw [hem, slashes_zero, List.nil_append]
    rcases hmode with hclosing | hunquoted
    · rw [hclosing, tokens_closing_lineAfter, hrest]
    · rw [hunquoted, tokens_unquoted_lineAfter, hrest]
      rfl

/-- Needs quotes: empty, or with a space, a tab or a double quote in it. -/
def NeedsQuotes (arg : List Char) : Prop := arg = [] ∨ containsAny arg = true

theorem splitArgs_lineOf_iff (args : List (List Char)) :
    splitArgs (lineOf args) = args ↔ ∀ a ∈ args, NeedsQuotes a → Survives a := by
  rw [splitArgs_eq_iff]
  induction args with
  | nil => simp [lineOf, tokens, finish]
  | cons a as ih =>
    rw [lineOf_cons, spelled_cons, List.forall_mem_cons, ← ih, quoteArg]
    split_ifs with hplain
    · obtain ⟨hne, hany⟩ := hplain
      have hneeds : ¬NeedsQuotes a := by
        intro h
        rcases h with rfl | h
        · exact hne rfl
        · rw [hany] at h
          cases h
      rw [tokens_between_plain hne hany]
      simp [hneeds]
    · have hneeds : NeedsQuotes a := by
        by_contra h
        rw [NeedsQuotes, not_or] at h
        exact hplain ⟨h.1, Bool.eq_false_iff.mpr h.2⟩
      have hquoted := @tokens_quoted_iff a as
      rw [List.cons_append, tokens]
      simp only [hneeds, forall_const]
      exact hquoted

end

/-- The relaunched process sees the arguments exactly where each of them that has to be quoted has no
backslash before a double quote or at its end, but for a single one before a quote that ends it. -/
theorem relaunched_commandLine_iff (args : List String) :
    relaunched (commandLine args) = args ↔
      ∀ a ∈ args, NeedsQuotes a.toList → Survives a.toList := by
  have hline : (commandLine args).toList = lineOf (args.map String.toList) := by
    rw [commandLine, String.toList_ofList, lineOf, List.map_map]
    rfl
  have hsplit : relaunched (commandLine args) = args ↔
      splitArgs (lineOf (args.map String.toList)) = args.map String.toList := by
    rw [relaunched, hline]
    constructor
    · intro h
      have hlists := congrArg (List.map String.toList) h
      rw [List.map_map] at hlists
      simpa [Function.comp_def] using hlists
    · intro h
      rw [h, List.map_map]
      simp [Function.comp_def]
  rw [hsplit, splitArgs_lineOf_iff]
  simp

/-- A path with a space that ends in a backslash takes the next argument with it. -/
theorem relaunched_path :
    relaunched (commandLine ["C:\\Program Files\\", "--insecure"]) = ["C:\\Program Files\" --insecure"] ∧
      ["C:\\Program Files\" --insecure"] ≠ ["C:\\Program Files\\", "--insecure"] := by
  decide +kernel

end LanWeave
