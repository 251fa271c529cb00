import CellReplay.Proofs.Json.Numbers
import CellReplay.Proofs.Text.Blanks

/-!
# Proofs.Json.Tokens

The tokens of a JSON text, without the space between them.

* `Token`, `tokens` — punctuation, strings, and words and numbers.
* `Breaks`          — a rest of a text that no word and no number goes on with.
* `tokens_cases`    — the first token of a text.
* `tokens_eq_punctuation`, `tokens_eq_quoted`, `tokens_eq_plain` — the text of a first token.
-/

namespace CellReplay.Json

open Text

def isPunctuation (c : Char) : Bool := c ∈ ['[', ']', '\x7b', '\x7d', ',', ':']

/-- A character of words and numbers. -/
def isPlain (c : Char) : Bool := !isSpace c && !isPunctuation c && c ≠ '"'

/-- A string behind its opening quote, up to the quote that closes it, and what comes then. -/
def quoted : List Char → List Char × List Char
  | [] => ([], [])
  | '"' :: cs => (['"'], cs)
  | '\\' :: c :: cs => ('\\' :: c :: (quoted cs).1, (quoted cs).2)
  | c :: cs => (c :: (quoted cs).1, (quoted cs).2)

theorem quoted_append (cs : List Char) : (quoted cs).1 ++ (quoted cs).2 = cs := by
  fun_induction quoted cs with
  | case1 => rfl
  | case2 cs => rfl
  | case3 c cs ih => rw [List.cons_append, List.cons_append, ih]
  | case4 c cs _ _ ih => rw [List.cons_append, ih]

theorem length_quoted_le (cs : List Char) : (quoted cs).2.length ≤ cs.length := by
  have h := congrArg List.length (quoted_append cs)
  rw [List.length_append] at h
  omega

inductive Token
  | punctuation (c : Char)
  | quoted (body : List Char)
  | plain (cs : List Char)
  deriving DecidableEq, Repr

def tokens : List Char → List Token
  | [] => []
  | c :: cs =>
    if isSpace c then tokens cs
    else if isPunctuation c then .punctuation c :: tokens cs
    else if c = '"' then .quoted (quoted cs).1 :: tokens (quoted cs).2
    else .plain (c :: cs.takeWhile isPlain) :: tokens (cs.dropWhile isPlain)
termination_by cs => cs.length
decreasing_by
  · simp
  · simp
  · exact Nat.lt_succ_of_le (length_quoted_le cs)
  · exact Nat.lt_succ_of_le (List.dropWhile_sublist _).length_le

/-! ## The first token -/

section

variable {c : Char} {cs rest : List Char} {ts : List Token}

theorem tokens_nil : tokens [] = [] := by rw [tokens]

theorem tokens_space (h : isSpace c = true) (cs : List Char) : tokens (c :: cs) = tokens cs := by
  rw [tokens, if_pos h]

theorem tokens_skipSpace (cs : List Char) : tokens (skipSpace cs) = tokens cs := by
  induction cs with
  | nil => rfl
  | cons c cs ih =>
    by_cases h : isSpace c = true
    · rw [tokens_space h, ← ih, skipSpace, List.dropWhile_cons_of_pos h, skipSpace]
    · rw [skipSpace_cons (by simpa using h)]

theorem isPunctuation_cases (h : isPunctuation c = true) :
    c = '[' ∨ c = ']' ∨ c = '\x7b' ∨ c = '\x7d' ∨ c = ',' ∨ c = ':' := by
  simpa [isPunctuation] using h

theorem isSpace_isPunctuation (h : isPunctuation c = true) : isSpace c = false := by
  rcases isPunctuation_cases h with rfl | rfl | rfl | rfl | rfl | rfl <;> rfl

theorem tokens_punctuation (h : isPunctuation c = true) (cs : List Char) :
    tokens (c :: cs) = .punctuation c :: tokens cs := by
  rw [tokens, if_neg (by simp [isSpace_isPunctuation h]), if_pos h]

theorem tokens_quote (cs : List Char) :
    tokens ('"' :: cs) = .quoted (quoted cs).1 :: tokens (quoted cs).2 := by
  rw [tokens, if_neg (by decide), if_neg (by decide), if_pos rfl]

theorem isPlain_iff : isPlain c = true ↔ isSpace c = false ∧ isPunctuation c = false ∧ c ≠ '"' := by
  simp [isPlain, and_assoc]

theorem isPlain_isDigit (h : isDigit c = true) : isPlain c = true := by
  have hmem := isDigit_cases h
  simp only [List.mem_cons, List.not_mem_nil, or_false] at hmem
  rcases hmem with rfl | rfl | rfl | rfl | rfl | rfl | rfl | rfl | rfl | rfl <;> decide

/-- No word and no number goes on here. -/
def Breaks (rest : List Char) : Prop := ∀ c ∈ rest.head?, isPlain c = false

theorem breaks_nil : Breaks [] := nofun

theorem breaks_dropWhile (cs : List Char) : Breaks (cs.dropWhile isPlain) := by
  intro c hc
  have hhead := List.head?_dropWhile_not isPlain cs
  rw [Option.mem_def.mp hc] at hhead
  exact hhead

theorem tokens_plain_append {w : List Char} (hne : w ≠ []) (hw : ∀ c ∈ w, isPlain c = true)
    (hr : Breaks rest) : tokens (w ++ rest) = .plain w :: tokens rest := by
  obtain ⟨c, w, rfl⟩ := List.exists_cons_of_ne_nil hne
  obtain ⟨hc, hw⟩ := List.forall_mem_cons.mp hw
  obtain ⟨hspace, hpunctuation, hquote⟩ := isPlain_iff.mp hc
  rw [List.cons_append, tokens, if_neg (by simp [hspace]), if_neg (by simp [hpunctuation]),
    if_neg hquote, takeWhile_append_stop hr, dropWhile_append_stop hr,
    List.takeWhile_eq_self_iff.mpr hw, List.dropWhile_eq_nil_iff.mpr hw, List.nil_append]

/-- A text begins with a token, behind space, or has none. -/
theorem tokens_cases (cs : List Char) :
    (skipSpace cs = [] ∧ tokens cs = []) ∨
    (∃ c rest, skipSpace cs = c :: rest ∧ isPunctuation c = true ∧
      tokens cs = .punctuation c :: tokens rest) ∨
    (∃ rest, skipSpace cs = '"' :: rest ∧
      tokens cs = .quoted (quoted rest).1 :: tokens (quoted rest).2) ∨
    ∃ w rest, skipSpace cs = w ++ rest ∧ w ≠ [] ∧ (∀ c ∈ w, isPlain c = true) ∧ Breaks rest ∧
      tokens cs = .plain w :: tokens rest := by
  rw [← tokens_skipSpace cs]
  cases hcs : skipSpace cs with
  | nil => exact .inl ⟨rfl, tokens_nil⟩
  | cons c rest =>
    have hspace : isSpace c = false := by
      have hhead := List.head?_dropWhile_not isSpace cs
      rw [skipSpace] at hcs
      rw [hcs] at hhead
      exact hhead
    by_cases hpunctuation : isPunctuation c = true
    · exact .inr (.inl ⟨c, rest, rfl, hpunctuation, tokens_punctuation hpunctuation rest⟩)
    by_cases hquote : c = '"'
    · rw [hquote]
      exact .inr (.inr (.inl ⟨rest, rfl, tokens_quote rest⟩))
    have hplain : isPlain c = true :=
      isPlain_iff.mpr ⟨hspace, by simpa using hpunctuation, hquote⟩
    have hword : ∀ d ∈ c :: rest.takeWhile isPlain, isPlain d = true :=
      List.forall_mem_cons.mpr ⟨hplain, fun d hd => List.mem_takeWhile_imp hd⟩
    have hsplit : c :: rest = (c :: rest.takeWhile isPlain) ++ rest.dropWhile isPlain := by
      rw [List.cons_append, List.takeWhile_append_dropWhile]
    refine .inr (.inr (.inr ⟨_, _, hsplit, List.cons_ne_nil _ _, hword, breaks_dropWhile rest, ?_⟩))
    rw [hsplit]
    exact tokens_plain_append (List.cons_ne_nil _ _) hword (breaks_dropWhile rest)

theorem tokens_eq_nil_iff : tokens cs = [] ↔ skipSpace cs = [] := by
  rcases tokens_cases cs with ⟨hcs, hts⟩ | ⟨c, rest, hcs, -, hts⟩ | ⟨rest, hcs, hts⟩ |
    ⟨w, rest, hcs, hne, -, -, hts⟩
  · simp [hcs, hts]
  · simp [hcs, hts]
  · simp [hcs, hts]
  · simp [hcs, hts, hne]

theorem tokens_eq_punctuation (h : tokens cs = .punctuation c :: ts) :
    ∃ rest, skipSpace cs = c :: rest ∧ isPunctuation c = true ∧ tokens rest = ts := by
  rcases tokens_cases cs with ⟨-, hts⟩ | ⟨d, rest, hcs, hd, hts⟩ | ⟨rest, -, hts⟩ |
    ⟨w, rest, -, -, -, -, hts⟩
  · cases hts.symm.trans h
  · cases hts.symm.trans h
    exact ⟨rest, hcs, hd, rfl⟩
  · cases hts.symm.trans h
  · cases hts.symm.trans h

theorem tokens_eq_quoted {body : List Char} (h : tokens cs = .quoted body :: ts) :
    ∃ rest, skipSpace cs = '"' :: rest ∧ (quoted rest).1 = body ∧ tokens (quoted rest).2 = ts := by
  rcases tokens_cases cs with ⟨-, hts⟩ | ⟨d, rest, -, -, hts⟩ | ⟨rest, hcs, hts⟩ |
    ⟨w, rest, -, -, -, -, hts⟩
  · cases hts.symm.trans h
  · cases hts.symm.trans h
  · cases hts.symm.trans h
    exact ⟨rest, hcs, rfl, rfl⟩
  · cases hts.symm.trans h

theorem tokens_eq_plain {w : List Char} (h : tokens cs = .plain w :: ts) :
    ∃ rest, skipSpace cs = w ++ rest ∧ w ≠ [] ∧ (∀ c ∈ w, isPlain c = true) ∧ Breaks rest ∧
      tokens rest = ts := by
  rcases tokens_cases cs with ⟨-, hts⟩ | ⟨d, rest, -, -, hts⟩ | ⟨rest, -, hts⟩ |
    ⟨v, rest, hcs, hne, hv, hr, hts⟩
  · cases hts.symm.trans h
  · cases hts.symm.trans h
  · cases hts.symm.trans h
  · cases hts.symm.trans h
    exact ⟨rest, hcs, hne, hv, hr, rfl⟩

end

end CellReplay.Json
