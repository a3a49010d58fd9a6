import InfixCalculator.Proofs.Reading

/-!
The lexer, pulled from the start of a text, delivers what the text says up to the first
fault, or all of it and then nothing more for ever after.
-/
namespace InfixCalculator

namespace Lexer

def afterPulls (l : Lexer) : Nat → Lexer
  | 0 => l
  | k + 1 => l.pull.2.afterPulls k

/-- What the pull after so many pulls delivers. -/
def delivery (l : Lexer) (k : Nat) : Pulled := (l.afterPulls k).pull.1

@[simp] theorem delivery_zero (l : Lexer) : l.delivery 0 = l.pull.1 := rfl
@[simp] theorem delivery_succ (l : Lexer) (k : Nat) :
    l.delivery (k + 1) = l.pull.2.delivery k := rfl

theorem flush_ne_end (l : Lexer) (next : LexerPhase) : (l.flush next).1 ≠ .ok none := by
  unfold flush
  split <;> simp

theorem meetOperator_ne_end (l : Lexer) (op : Operator) : (l.meetOperator op).1 ≠ .ok none := by
  unfold meetOperator
  split
  · exact flush_ne_end _ _
  · simp

/-- The end is reported only outside a run, and it changes nothing. -/
theorem meetEnd_of_end {l next : Lexer} (h : l.meetEnd = (.ok none, next)) :
    l.phase ≠ .inRun ∧ next = l := by
  unfold meetEnd at h
  split at h
  · exact absurd (congrArg Prod.fst h) (flush_ne_end l .idle)
  · rename_i hphase
    exact ⟨hphase, (Prod.mk.inj h).2.symm⟩

theorem collect_nil {l : Lexer} (h : l.rest = []) : l.collect [] [] = l := by
  obtain ⟨before, rest, buffer, pending, phase⟩ := l
  obtain rfl : rest = [] := h
  simp [collect]

/-- A lexer that delivers the end has read all of its text and holds no run. -/
theorem advance_of_end {l next : Lexer} (h : l.advance = (.ok none, next)) :
    l.rest = [] ∧ l.phase ≠ .inRun ∧ next = l := by
  unfold advance at h
  split at h
  · rename_i run hcut
    obtain ⟨hphase, hnext⟩ := meetEnd_of_end h
    have hrun : run = [] := by
      by_contra hrun
      simp [collect, hrun] at hphase
    have hlength := length_cutAtOperator l.rest
    rw [hcut, hrun] at hlength
    have hrest : l.rest = [] := List.length_eq_zero_iff.mp hlength.symm
    rw [hrun, collect_nil hrest] at hphase hnext
    exact ⟨hrest, hphase, hnext⟩
  · exact absurd (congrArg Prod.fst h) (meetOperator_ne_end _ _)

theorem skipBlanks_nil {l : Lexer} (h : l.rest = []) : l.skipBlanks = l := by
  obtain ⟨before, rest, buffer, pending, phase⟩ := l
  obtain rfl : rest = [] := h
  simp [skipBlanks]

/-- At the end of a text a pull changes nothing. -/
theorem pull_of_end {l next : Lexer} (h : l.pull = (.ok none, next)) :
    next.pull = (.ok none, next) := by
  unfold pull at h
  split at h
  · simp at h
  · rename_i notDue
    obtain ⟨hrest, -, rfl⟩ := advance_of_end h
    unfold pull
    split
    · rename_i op hphase hpending
      exact absurd hpending (notDue op hphase)
    · rw [skipBlanks_nil hrest]
      exact h

/-- Behind the end there is only the end. -/
theorem delivery_of_end {l next : Lexer} (h : l.pull = (.ok none, next)) (k : Nat) :
    l.delivery k = .ok none := by
  induction k generalizing l with
  | zero => rw [delivery_zero, h]
  | succ k ih =>
    rw [delivery_succ, h]
    exact ih (pull_of_end h)

end Lexer

/-- What is delivered pull by pull: the lexemes up to the first fault, or all of them
and then nothing more. -/
structure Delivers (delivery : Nat → Pulled) (found : List Lexeme) : Prop where
  each : ∀ (tokens : List Token) (lexeme : Lexeme) (rest : List Lexeme),
    found = tokens.map .ok ++ lexeme :: rest → delivery tokens.length = lexeme.map some
  ended : ∀ tokens : List Token, found = tokens.map .ok →
    ∀ k ≥ tokens.length, delivery k = .ok none

theorem Delivers.nil {delivery : Nat → Pulled} (h : ∀ k, delivery k = .ok none) :
    Delivers delivery [] := by
  constructor
  · intro tokens lexeme rest hfound
    simp at hfound
  · exact fun _ _ k _ => h k

theorem Delivers.fault {delivery : Nat → Pulled} {fault : Fault} (h : delivery 0 = .error fault)
    (rest : List Lexeme) : Delivers delivery (.error fault :: rest) := by
  constructor
  · intro tokens lexeme others hfound
    cases tokens with
    | nil =>
      obtain ⟨rfl, -⟩ := List.cons.inj hfound
      exact h
    | cons token tokens => simp at hfound
  · intro tokens hfound
    cases tokens <;> simp at hfound

theorem Delivers.token {delivery : Nat → Pulled} {token : Token} {rest : List Lexeme}
    (h : delivery 0 = .ok (some token)) (hrest : Delivers (fun k => delivery (k + 1)) rest) :
    Delivers delivery (.ok token :: rest) := by
  constructor
  · intro tokens lexeme others hfound
    cases tokens with
    | nil =>
      obtain ⟨rfl, -⟩ := List.cons.inj hfound
      exact h
    | cons first tokens => exact hrest.each tokens lexeme others (List.cons.inj hfound).2
  · intro tokens hfound k hk
    cases tokens with
    | nil => simp at hfound
    | cons first tokens =>
      cases k with
      | zero => simp at hk
      | succ k => exact hrest.ended tokens (List.cons.inj hfound).2 k (by simpa using hk)

theorem Scan.push_ne {token : Token} {s : Scan} {fault : Option Fault} :
    s.push token ≠ ⟨[], fault⟩ := by
  intro h
  exact List.cons_ne_nil _ _ (congrArg Scan.tokens h)

theorem Scan.push_inj {token other : Token} {s t : Scan} (h : s.push token = t.push other) :
    token = other ∧ s = t := by
  obtain ⟨tokens, fault⟩ := s
  obtain ⟨others, fault'⟩ := t
  obtain ⟨htokens, rfl⟩ := Scan.mk.inj h
  obtain ⟨rfl, rfl⟩ := List.cons.inj htokens
  exact ⟨rfl, rfl⟩

namespace Lexer

theorem pull_of_scan_end {l : Lexer} (h : l.scan = ⟨[], none⟩) :
    ∃ next, l.pull = (.ok none, next) := by
  match hpull : l.pull with
  | (.ok none, next) => exact ⟨next, rfl⟩
  | (.ok (some token), next) => exact absurd ((scan_of_token hpull).symm.trans h) Scan.push_ne
  | (.error fault, next) =>
    have hfault := congrArg Scan.fault ((scan_of_fault hpull).symm.trans h)
    contradiction

theorem pull_of_scan_fault {l : Lexer} {fault : Fault} (h : l.scan = ⟨[], some fault⟩) :
    ∃ next, l.pull = (.error fault, next) := by
  match hpull : l.pull with
  | (.ok none, next) =>
    have hfault := congrArg Scan.fault ((scan_of_end hpull).symm.trans h)
    contradiction
  | (.ok (some token), next) => exact absurd ((scan_of_token hpull).symm.trans h) Scan.push_ne
  | (.error found, next) =>
    have hfault := (scan_of_fault hpull).symm.trans h
    obtain rfl : found = fault := Option.some.inj (congrArg Scan.fault hfault)
    exact ⟨next, rfl⟩

/-- The next pull delivers the first token of a scan, and leaves the rest to scan. -/
theorem pull_of_scan_token {l : Lexer} {token : Token} {more : Scan}
    (h : l.scan = more.push token) :
    ∃ next, l.pull = (.ok (some token), next) ∧ next.scan = more := by
  match hpull : l.pull with
  | (.ok none, next) => exact absurd (h.symm.trans (scan_of_end hpull)) Scan.push_ne
  | (.ok (some found), next) =>
    obtain ⟨rfl, hmore⟩ := Scan.push_inj ((scan_of_token hpull).symm.trans h)
    exact ⟨next, rfl, hmore⟩
  | (.error fault, next) => exact absurd (h.symm.trans (scan_of_fault hpull)) Scan.push_ne

/-- A lexer delivers what its scan is made of. -/
theorem delivers_of_scan {l : Lexer} {found : List Lexeme} (h : l.scan = .ofLexemes found) :
    Delivers l.delivery found := by
  induction found generalizing l with
  | nil =>
    obtain ⟨next, hpull⟩ := pull_of_scan_end h
    exact .nil (delivery_of_end hpull)
  | cons lexeme rest ih =>
    cases lexeme with
    | error fault =>
      obtain ⟨next, hpull⟩ := pull_of_scan_fault h
      exact .fault (congrArg Prod.fst hpull) rest
    | ok token =>
      obtain ⟨next, hpull, hnext⟩ := pull_of_scan_token h
      have hrest : (fun k => l.delivery (k + 1)) = next.delivery := by
        funext k
        rw [delivery_succ, hpull]
      exact .token (congrArg Prod.fst hpull) (hrest ▸ ih hnext)

end Lexer

/-- The lexer says what the text says. -/
theorem lexer_delivers_lexemes (text : String) :
    ∃ found : List Lexeme,
      (∀ other, Reads text.toList other ↔ other = found) ∧
      Delivers (Lexer.ofText text.toList).delivery found ∧
      tokenize text = found.mapM id ∧
      ∀ front gap back : List Char, text.toList = front ++ back → (∀ c ∈ gap, isBlank c) →
        BlanksVanish front back →
          Reads (front ++ gap ++ back) found ∧
          tokenize (String.ofList (front ++ gap ++ back)) = tokenize text := by
  refine ⟨lexemes text.toList, fun _ => reads_iff, ?_, tokenize_eq_mapM text, ?_⟩
  · exact Lexer.delivers_of_scan (scanText_eq_ofLexemes text.toList)
  · intro front gap back htext hgap place
    have hsame : lexemes (front ++ gap ++ back) = lexemes text.toList := by
      rw [htext]
      exact lexemes_insert_blank hgap place
    constructor
    · exact reads_iff.mpr hsame.symm
    · rw [tokenize_eq_mapM, tokenize_eq_mapM, String.toList_ofList, hsame]

/-- Blanks before the operator do not become part of the symbol before it. -/
theorem lexer_delivers_lexemes_spaced :
    let front := "(7,5".toList
    let gap := ['\t', '\n']
    let back := "*".toList
    ("(7,5*".toList = front ++ back ∧ (∀ c ∈ gap, isBlank c) ∧ BlanksVanish front back) ∧
    tokenize "(7,5*" = .error (.unknownSymbol "7,5") ∧
    tokenize (String.ofList (front ++ gap ++ back)) = tokenize "(7,5*" := by
  intro front gap back
  have hblank : ∀ c ∈ gap, isBlank c := isBlankText_eq_true_iff.mp rfl
  have hplace : BlanksVanish front back := .inr (.inr (.inr ⟨.binary .mul, rfl⟩))
  obtain ⟨found, -, -, htokens, hinsert⟩ := lexer_delivers_lexemes "(7,5*"
  refine ⟨⟨rfl, hblank, hplace⟩, ?_, (hinsert front gap back rfl hblank hplace).2⟩
  rw [tokenize_eq_mapM]
  rfl

end InfixCalculator
