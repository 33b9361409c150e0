import Mathlib.Data.List.Basic

/-! How Windows splits the arguments after the program name (the rules of CommandLineToArgvW): as a
scanner that emits, for each character read, what of it is known to belong to the current argument. -/

namespace LanWeave.Library.Argv

/-- A character of the current argument; `none` ends the argument. -/
abbrev Token := Option Char

/-- Backslashes are held back until it is known whether a quote follows them. -/
inductive Mode
  | between
  | unquoted (slashes : ℕ)
  | quoted (slashes : ℕ)
  /-- A quote has been read inside quotes: another one next to it is literal, and ends them too. -/
  | closing
deriving DecidableEq

def slashes (n : ℕ) : List Token := List.replicate n (some '\\')

/-- Half of the backslashes before a quote are literal; an odd one makes the quote literal. -/
def quoteStep (n : ℕ) (same other : Mode) : List Token × Mode :=
  if n % 2 = 1 then (slashes (n / 2) ++ [some '"'], same) else (slashes (n / 2), other)

def unquotedStep (n : ℕ) (c : Char) : List Token × Mode :=
  if c = '\\' then ([], .unquoted (n + 1))
  else if c = '"' then quoteStep n (.unquoted 0) (.quoted 0)
  else if c = ' ' ∨ c = '\t' then (slashes n ++ [none], .between)
  else (slashes n ++ [some c], .unquoted 0)

def step : Mode → Char → List Token × Mode
  | .between, c => if c = ' ' ∨ c = '\t' then ([], .between) else unquotedStep 0 c
  | .unquoted n, c => unquotedStep n c
  | .quoted n, c =>
    if c = '\\' then ([], .quoted (n + 1))
    else if c = '"' then quoteStep n (.quoted 0) .closing
    else (slashes n ++ [some c], .quoted 0)
  | .closing, c => if c = '"' then ([some '"'], .unquoted 0) else unquotedStep 0 c

def finish : Mode → List Token
  | .between => []
  | .unquoted n => slashes n ++ [none]
  | .quoted n => slashes n ++ [none]
  | .closing => [none]

def tokens : Mode → List Char → List Token
  | m, [] => finish m
  | m, c :: cs => (step m c).1 ++ tokens (step m c).2 cs

def collect : List Token → List (List Char)
  | [] => []
  | none :: ts => [] :: collect ts
  | some c :: ts =>
    match collect ts with
    | [] => [[c]]
    | a :: as => (c :: a) :: as

def splitArgs (line : List Char) : List (List Char) := collect (tokens .between line)

def spelled (args : List (List Char)) : List Token := args.flatMap fun a => a.map some ++ [none]

variable {m : Mode} {n : ℕ} {c : Char} {cs ds a : List Char} {args as : List (List Char)}

@[simp] theorem spelled_nil : spelled [] = [] := rfl

@[simp] theorem spelled_cons : spelled (a :: as) = a.map some ++ none :: spelled as := by
  simp [spelled]

theorem collect_spelled (args : List (List Char)) : collect (spelled args) = args := by
  induction args with
  | nil => rfl
  | cons a as ih =>
    rw [spelled_cons]
    induction a with
    | nil =>
      rw [List.map_nil, List.nil_append, collect, ih]
    | cons c a ih' =>
      rw [List.map_cons, List.cons_append, collect, ih']

def Ended (ts : List Token) : Prop := ts = [] ∨ ts.getLast? = some none

theorem Ended.of_cons {t : Token} {ts : List Token} (h : Ended (t :: ts)) : Ended ts := by
  cases ts with
  | nil => exact .inl rfl
  | cons t' ts =>
    rcases h with hnil | hlast
    · cases hnil
    · exact .inr (by rwa [List.getLast?_cons_cons] at hlast)

theorem spelled_collect {ts : List Token} (h : Ended ts) : spelled (collect ts) = ts := by
  induction ts with
  | nil => rfl
  | cons t ts ih =>
    have hrest := ih h.of_cons
    cases t with
    | none => rw [collect, spelled_cons, hrest, List.map_nil, List.nil_append]
    | some c =>
      cases hargs : collect ts with
      | nil =>
        rw [hargs, spelled_nil] at hrest
        subst hrest
        rcases h with hnil | hlast
        · cases hnil
        · cases hlast
      | cons a as =>
        rw [hargs, spelled_cons] at hrest
        rw [collect, hargs, spelled_cons, List.map_cons, List.cons_append, hrest]

theorem unquotedStep_between (h : (unquotedStep n c).2 = .between) :
    (unquotedStep n c).1.getLast? = some none := by
  unfold unquotedStep quoteStep at h ⊢
  split_ifs at h ⊢ with hslash hquote hodd hblank
  simp

theorem step_between (h : (step m c).2 = .between) :
    (step m c).1 = [] ∧ m = .between ∨ (step m c).1.getLast? = some none := by
  cases m with
  | between =>
    simp only [step] at h ⊢
    split_ifs at h ⊢ with hblank
    · simp
    · exact .inr (unquotedStep_between h)
  | unquoted n => exact .inr (unquotedStep_between h)
  | quoted n =>
    simp only [step, quoteStep] at h
    split_ifs at h
  | closing =>
    simp only [step] at h ⊢
    split_ifs at h ⊢
    exact .inr (unquotedStep_between h)

theorem tokens_ended (m : Mode) (cs : List Char) :
    tokens m cs = [] ∧ m = .between ∨ (tokens m cs).getLast? = some none := by
  induction cs generalizing m with
  | nil =>
    cases m with
    | between => exact .inl ⟨rfl, rfl⟩
    | unquoted n => simp [tokens, finish]
    | quoted n => simp [tokens, finish]
    | closing => simp [tokens, finish]
  | cons c cs ih =>
    rw [tokens]
    rcases ih (step m c).2 with ⟨hnil, hbetween⟩ | hlast
    · rw [hnil, List.append_nil]
      exact step_between hbetween
    · exact .inr (by rw [List.getLast?_append, hlast, Option.some_or])

/-- The split gives these arguments exactly where the tokens spell them. -/
theorem splitArgs_eq_iff : splitArgs cs = args ↔ tokens .between cs = spelled args := by
  have hended : Ended (tokens .between cs) := (tokens_ended .between cs).imp_left And.left
  constructor
  · intro h
    rw [← h, splitArgs, spelled_collect hended]
  · intro h
    rw [splitArgs, h, collect_spelled]

/-- What a part of the line emits, and how it leaves the scanner. -/
def scan : Mode → List Char → List Token × Mode
  | m, [] => ([], m)
  | m, c :: cs => ((step m c).1 ++ (scan (step m c).2 cs).1, (scan (step m c).2 cs).2)

theorem tokens_append : tokens m (cs ++ ds) = (scan m cs).1 ++ tokens (scan m cs).2 ds := by
  induction cs generalizing m with
  | nil => rfl
  | cons c cs ih => rw [List.cons_append, tokens, ih, scan, List.append_assoc]

theorem scan_append_singleton :
    scan m (cs ++ [c]) = ((scan m cs).1 ++ (step (scan m cs).2 c).1, (step (scan m cs).2 c).2) := by
  induction cs generalizing m with
  | nil => simp [scan]
  | cons d cs ih => rw [List.cons_append, scan, ih, scan, List.append_assoc]

@[simp] theorem step_unquoted_slash : step (.unquoted n) '\\' = ([], .unquoted (n + 1)) := rfl

@[simp] theorem step_quoted_slash : step (.quoted n) '\\' = ([], .quoted (n + 1)) := rfl

@[simp] theorem step_unquoted_quote : step (.unquoted n) '"' = quoteStep n (.unquoted 0) (.quoted 0) := rfl

@[simp] theorem step_quoted_quote : step (.quoted n) '"' = quoteStep n (.quoted 0) .closing := rfl

theorem step_quoted_other (hslash : c ≠ '\\') (hquote : c ≠ '"') :
    step (.quoted n) c = (slashes n ++ [some c], .quoted 0) := by
  simp [step, hslash, hquote]

theorem step_unquoted_blank (h : c = ' ' ∨ c = '\t') :
    step (.unquoted n) c = (slashes n ++ [none], .between) := by
  rcases h with rfl | rfl
  · rfl
  · rfl

theorem step_unquoted_other (hslash : c ≠ '\\') (hquote : c ≠ '"') (hblank : ¬(c = ' ' ∨ c = '\t')) :
    step (.unquoted n) c = (slashes n ++ [some c], .unquoted 0) := by
  simp [step, unquotedStep, hslash, hquote, hblank]

theorem step_between_of_not (hblank : ¬(c = ' ' ∨ c = '\t')) :
    step .between c = step (.unquoted 0) c := by
  simp [step, hblank]

theorem step_closing_of_ne (hquote : c ≠ '"') : step .closing c = step (.unquoted 0) c := by
  simp [step, hquote]

@[simp] theorem length_slashes (n : ℕ) : (slashes n).length = n := List.length_replicate

@[simp] theorem slashes_zero : slashes 0 = [] := rfl

theorem slashes_succ (n : ℕ) : slashes (n + 1) = slashes n ++ [some '\\'] := List.replicate_succ'

@[simp] theorem count_slashes : (slashes n).count (some ' ') = 0 := by
  rw [slashes, List.count_replicate]
  rfl

@[simp] theorem none_notMem_slashes : none ∉ slashes n := by simp [slashes]

/-- After a quote nothing is held back. -/
theorem step_quote (m : Mode) :
    (step m '"').2 = .unquoted 0 ∨ (step m '"').2 = .quoted 0 ∨ (step m '"').2 = .closing := by
  cases m with
  | between => exact .inr (.inl rfl)
  | unquoted n =>
    by_cases hodd : n % 2 = 1
    · exact .inl (by simp [step, unquotedStep, quoteStep, hodd])
    · exact .inr (.inl (by simp [step, unquotedStep, quoteStep, hodd]))
  | quoted n =>
    by_cases hodd : n % 2 = 1
    · exact .inr (.inl (by simp [step, quoteStep, hodd]))
    · exact .inr (.inr (by simp [step, quoteStep, hodd]))
  | closing => exact .inl rfl

end LanWeave.Library.Argv
