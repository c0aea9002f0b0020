import Mathlib.Data.List.Infix
import Mathlib.Data.Set.List

/-!
# LIKE patterns

`LIKE` and `ILIKE` with their default escape character, the backslash.

- `Token`, `tokens`: a pattern, read from left to right; it is an error for a pattern to end
  in a lone backslash.
- `matchesTokens`: the text as a whole is what the pattern describes.
- `ilike`: both sides go through `fold` first, which leaves the special characters alone.
- `contain`: the pattern `%term%`. It describes the texts that contain the term
  (`Folds.like_infix`), unless the term has a special character (`Folds.like_other`).
-/

namespace Like

/-- A piece of a pattern: a character, any character, any text. -/
inductive Token
  | char (c : Char)
  | one
  | many
  deriving DecidableEq

/-- The characters that a pattern does not take literally. -/
def Special (c : Char) : Prop := c = '%' ∨ c = '_' ∨ c = '\\'

instance (c : Char) : Decidable (Special c) := by unfold Special; infer_instance

/-- Reading a pattern. -/
def tokens : List Char → Option (List Token)
  | [] => some []
  | ['\\'] => none
  | '\\' :: c :: cs => (tokens cs).map (.char c :: ·)
  | '%' :: cs => (tokens cs).map (.many :: ·)
  | '_' :: cs => (tokens cs).map (.one :: ·)
  | c :: cs => (tokens cs).map (.char c :: ·)

/-- The text is of the form that the pattern describes. -/
def matchesTokens : List Token → List Char → Bool
  | [], text => text.isEmpty
  | .char c :: p, text => text.head?.any (· = c) && matchesTokens p text.tail
  | .one :: p, text => text.head?.isSome && matchesTokens p text.tail
  | .many :: p, text => text.tails.any fun rest => matchesTokens p rest

/-- `text LIKE pattern`; `none` is the error of a pattern that ends in a lone backslash. -/
def like (text pattern : List Char) : Option Bool :=
  (tokens pattern).map fun p => matchesTokens p text

/-- `text ILIKE pattern`, for texts and patterns that raise no error. -/
def ilike (fold : Char → Char) (text pattern : String) : Bool :=
  like (text.toList.map fold) (pattern.toList.map fold) = some true

/-! ## Matching -/

theorem matches_char {c : Char} {p : List Token} {text : List Char} :
    matchesTokens (.char c :: p) text = true ↔ ∃ rest, text = c :: rest ∧
      matchesTokens p rest = true := by
  cases text with
  | nil => simp [matchesTokens]
  | cons d rest => simp [matchesTokens, and_assoc]

theorem matches_many {p : List Token} {text : List Char} :
    matchesTokens (.many :: p) text = true ↔ ∃ rest, rest <:+ text ∧
      matchesTokens p rest = true := by
  simp [matchesTokens]

theorem matches_last {text : List Char} : matchesTokens [.many] text = true :=
  matches_many.mpr ⟨[], List.nil_suffix, rfl⟩

/-- Characters and then any text: the texts that begin with these characters. -/
theorem matches_leading {term text : List Char} :
    matchesTokens (term.map .char ++ [.many]) text = true ↔ term <+: text := by
  induction term generalizing text with
  | nil => exact iff_of_true matches_last List.nil_prefix
  | cons c term ih =>
    rw [List.map_cons, List.cons_append, matches_char]
    constructor
    · rintro ⟨rest, rfl, hrest⟩
      exact (List.prefix_cons_inj c).mpr (ih.mp hrest)
    · rintro ⟨tail, rfl⟩
      exact ⟨term ++ tail, rfl, ih.mpr (List.prefix_append term tail)⟩

/-! ## Reading a pattern that ends in `%` -/

theorem tokens_plain {c : Char} {cs : List Char} (h : ¬ Special c) :
    tokens (c :: cs) = (tokens cs).map (.char c :: ·) := by
  have hne : c ≠ '%' ∧ c ≠ '_' ∧ c ≠ '\\' := by
    simpa [Special, not_or] using h
  obtain ⟨hpercent, hunderscore, hbackslash⟩ := hne
  rw [tokens] <;> simp_all

/-- A term without special characters stands for itself. -/
theorem tokens_term {term : List Char} (h : ∀ c ∈ term, ¬ Special c) :
    tokens (term ++ ['%']) = some (term.map .char ++ [.many]) := by
  induction term with
  | nil => rfl
  | cons c term ih =>
    rw [List.cons_append, tokens_plain (h c List.mem_cons_self),
      ih fun d hd => h d (List.mem_cons_of_mem c hd)]
    rfl

/-- A text of the form that the pattern describes: nothing for `%`, and `x` for `_`. -/
def sample (x : Char) : List Token → List Char
  | [] => []
  | .char c :: p => c :: sample x p
  | .one :: p => x :: sample x p
  | .many :: p => sample x p

theorem matches_sample (x : Char) (p : List Token) : matchesTokens p (sample x p) = true := by
  induction p with
  | nil => rfl
  | cons t p ih =>
    cases t with
    | char c => exact matches_char.mpr ⟨sample x p, rfl, ih⟩
    | one => exact ih
    | many => exact matches_many.mpr ⟨sample x p, List.suffix_rfl, ih⟩

/-- Any term can be read, and its sample is not longer than the term; where it is the term
itself, no character of the term is special. -/
theorem tokens_sample {x : Char} (hx : x ≠ '_') (term : List Char) :
    ∃ p, tokens (term ++ ['%']) = some p ∧ (sample x p).length ≤ term.length ∧
      (sample x p = term → ∀ c ∈ term, ¬ Special c) ∧
      ∀ c ∈ sample x p, c = x ∨ c = '%' ∨ c ∈ term := by
  induction term using tokens.induct with
  | case1 => exact ⟨[.many], rfl, le_refl 0, (fun _ _ h => by cases h), fun _ h => by cases h⟩
  | case2 =>
    -- the backslash escapes the `%` that was appended
    refine ⟨[.char '%'], rfl, le_refl 1, fun h => ?_, fun c hc => ?_⟩
    · simp [sample] at h
    · exact .inr (.inl (List.mem_singleton.mp hc))
  | case3 c cs ih =>
    obtain ⟨p, hp, hlength, -, hmem⟩ := ih
    refine ⟨.char c :: p, ?_, ?_, fun h => ?_, ?_⟩
    · rw [List.cons_append, List.cons_append, tokens, hp]
      rfl
    · simp only [sample, List.length_cons]
      omega
    · have hlength' := congrArg List.length h
      simp only [sample, List.length_cons] at hlength'
      omega
    · simp only [sample, List.mem_cons]
      grind
  | case4 cs ih =>
    obtain ⟨p, hp, hlength, -, hmem⟩ := ih
    refine ⟨.many :: p, ?_, ?_, fun h => ?_, ?_⟩
    · rw [List.cons_append, tokens, hp]
      rfl
    · simp only [sample, List.length_cons]
      omega
    · have hlength' := congrArg List.length h
      simp only [sample, List.length_cons] at hlength'
      omega
    · simp only [sample, List.mem_cons]
      grind
  | case5 cs ih =>
    obtain ⟨p, hp, hlength, -, hmem⟩ := ih
    refine ⟨.one :: p, ?_, ?_, fun h => ?_, ?_⟩
    · rw [List.cons_append, tokens, hp]
      rfl
    · simp only [sample, List.length_cons]
      omega
    · exact absurd (List.cons.inj h).1 hx
    · simp only [sample, List.mem_cons]
      grind
  | case6 c cs hlone hescape hpercent hunderscore ih =>
    obtain ⟨p, hp, hlength, hplain, hmem⟩ := ih
    have hspecial : ¬ Special c := by
      rintro (rfl | rfl | rfl)
      · exact hpercent rfl
      · exact hunderscore rfl
      · cases cs with
        | nil => exact hlone rfl rfl
        | cons d cs => exact hescape d cs rfl rfl
    refine ⟨.char c :: p, ?_, ?_, fun h d hd => ?_, ?_⟩
    · rw [List.cons_append, tokens_plain hspecial, hp]
      rfl
    · simp only [sample, List.length_cons]
      omega
    · rcases List.mem_cons.mp hd with rfl | hd
      · exact hspecial
      · exact hplain (List.cons.inj h).2 d hd
    · simp only [sample, List.mem_cons]
      grind

/-! ## Containing a term -/

/-- Any text, the term, any text. -/
def contain (term : List Char) : List Char := '%' :: (term ++ ['%'])

theorem like_contain {term text : List Char} {p : List Token}
    (hp : tokens (term ++ ['%']) = some p) :
    like text (contain term) = some true ↔ ∃ rest, rest <:+ text ∧ matchesTokens p rest = true := by
  rw [like, contain, tokens, hp]
  simp only [Option.map_some, Option.some.injEq]
  exact matches_many

/-- A term without special characters: the texts that contain it. -/
theorem like_infix {term : List Char} (h : ∀ c ∈ term, ¬ Special c) (text : List Char) :
    like text (contain term) = some true ↔ term <:+: text := by
  rw [like_contain (tokens_term h), List.infix_iff_prefix_suffix]
  simp only [matches_leading]
  exact exists_congr fun rest => and_comm

/-- A folding of cases leaves the special characters alone, and makes no other character
special. -/
def Folds (fold : Char → Char) : Prop := ∀ c, Special c ∨ Special (fold c) → fold c = c

variable {fold : Char → Char}

theorem Folds.special (hfold : Folds fold) (c : Char) : Special (fold c) ↔ Special c := by
  constructor
  · intro h
    have heq := hfold c (.inr h)
    rwa [heq] at h
  · intro h
    rwa [hfold c (.inl h)]

theorem Folds.contain (hfold : Folds fold) (term : List Char) :
    (contain term).map fold = contain (term.map fold) := by
  have hpercent : fold '%' = '%' := hfold '%' (.inl (.inl rfl))
  simp [Like.contain, hpercent]

/-- Without special characters, folding or not, the term is what is looked for. -/
theorem Folds.like_infix (hfold : Folds fold) {term : List Char} (h : ∀ c ∈ term, ¬ Special c)
    (text : List Char) :
    like (text.map fold) ((Like.contain term).map fold) = some true ↔
      term.map fold <:+: text.map fold := by
  rw [hfold.contain]
  refine Like.like_infix (fun c hc => ?_) _
  obtain ⟨d, hd, rfl⟩ := List.mem_map.mp hc
  exact mt (hfold.special d).mp (h d hd)

/-- A term with a special character also finds a text that does not contain it. -/
theorem Folds.like_other (hfold : Folds fold) {term : List Char} (h : ∃ c ∈ term, Special c) :
    ∃ text : List Char, text.length ≤ term.length ∧
      like (text.map fold) ((Like.contain term).map fold) = some true ∧
      ¬ term.map fold <:+: text.map fold := by
  have hx : fold 'x' ≠ '_' := by
    intro heq
    have hspecial : Special (fold 'x') := .inr (.inl heq)
    exact absurd ((hfold.special 'x').mp hspecial) (by decide)
  obtain ⟨p, hp, hlength, hplain, hmem⟩ := tokens_sample hx (term.map fold)
  -- the sample is a folded text
  have hrange : sample (fold 'x') p ∈ Set.range (List.map fold) := by
    rw [Set.range_list_map]
    intro c hc
    rcases hmem c hc with rfl | rfl | hc
    · exact ⟨'x', rfl⟩
    · exact ⟨'%', hfold '%' (.inl (.inl rfl))⟩
    · obtain ⟨d, -, rfl⟩ := List.mem_map.mp hc
      exact ⟨d, rfl⟩
  obtain ⟨text, htext⟩ := hrange
  have htextLength : text.length = (sample (fold 'x') p).length := by
    rw [← htext, List.length_map]
  rw [List.length_map] at hlength
  refine ⟨text, htextLength.trans_le hlength, ?_, fun hinfix => ?_⟩
  · rw [htext, hfold.contain, like_contain hp]
    exact ⟨_, List.suffix_rfl, matches_sample _ p⟩
  · rw [htext] at hinfix
    have heq : term.map fold = sample (fold 'x') p := by
      refine hinfix.eq_of_length_le ?_
      rwa [List.length_map]
    obtain ⟨c, hc, hspecial⟩ := h
    refine hplain heq.symm (fold c) (List.mem_map_of_mem hc) ?_
    exact (hfold.special c).mpr hspecial

end Like
