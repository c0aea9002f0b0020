import Mathlib.Algebra.BigOperators.Group.List.Basic
import Mathlib.Algebra.Order.Field.Rat
import Mathlib.Data.List.Sort
import Mathlib.Data.Rat.Floor
import Mathlib.Tactic.Ring
import Mathlib.Tactic.Set

/-!
# Text and identifiers

The text operations of the host language that the application relies on, on
lists of code points, and `uuid.UUID` / `str(uuid)`.

- `partition`, `strip`, `removeAll`: `str.partition` on one character,
  `str.strip()`, and `str.replace(pat, "")`.
- `parseUuid`: `uuid.UUID(text)`. It is more liberal than the canonical form:
  the prefixes `urn:` and `uuid:`, braces and hyphens are dropped wherever they
  stand, and the 32 characters left are read by `int(_, 16)`, which itself
  accepts a sign, a `0x` prefix, underscores between digits and outer spaces.
- `uuidStr`: the canonical text of an identifier.
-/

namespace LmsBackend

/-- A `uuid.UUID`, by its integer value. -/
abbrev Uuid := Nat

/-- An instant, in whole seconds since the epoch. -/
abbrev Time := Nat

/-- An instant, in microseconds since the beginning of the year 1 in UTC. -/
abbrev Instant := Int

namespace Text

/-- `c.isspace()`. -/
def isSpace (c : Char) : Bool :=
  let n := c.toNat
  (9 ≤ n && n ≤ 13) || (28 ≤ n && n ≤ 32) || n = 133 || n = 160 || n = 5760 ||
    (8192 ≤ n && n ≤ 8202) || n = 8232 || n = 8233 || n = 8239 || n = 8287 || n = 12288

/-- Drop the characters of a set from both ends. -/
def stripBy (p : Char → Bool) (s : List Char) : List Char :=
  ((s.dropWhile p).reverse.dropWhile p).reverse

/-- `s.strip()`. -/
def strip (s : List Char) : List Char := stripBy isSpace s

/-- `s.partition(sep)` without its middle part: the text before the first `sep`,
and the text after it. -/
def partition (sep : Char) : List Char → List Char × List Char
  | [] => ([], [])
  | c :: cs => if c = sep then ([], cs) else (c :: (partition sep cs).1, (partition sep cs).2)

/-- `s.replace(pat, "")`, left to right; `skip` characters belong to a match. -/
def removeAll (pat : List Char) (skip : Nat) : List Char → List Char
  | [] => []
  | c :: cs =>
    match skip with
    | n + 1 => removeAll pat n cs
    | 0 => if pat.isPrefixOf (c :: cs) then removeAll pat (pat.length - 1) cs
      else c :: removeAll pat 0 cs

/-- The value of a hexadecimal digit. -/
def hexDigit (c : Char) : Option Nat :=
  if '0' ≤ c ∧ c ≤ '9' then some (c.toNat - '0'.toNat)
  else if 'a' ≤ c ∧ c ≤ 'f' then some (c.toNat - 'a'.toNat + 10)
  else if 'A' ≤ c ∧ c ≤ 'F' then some (c.toNat - 'A'.toNat + 10)
  else none

/-- Hexadecimal digits in which single underscores may separate digits;
`afterDigit` says that the previous character was one. -/
def hexDigits (acc : Nat) (afterDigit : Bool) : List Char → Option Nat
  | [] => if afterDigit then some acc else none
  | c :: cs =>
    if c = '_' then (if afterDigit then hexDigits acc false cs else none)
    else match hexDigit c with
      | some d => hexDigits (acc * 16 + d) true cs
      | none => none

/-- `int(s, 16)` on a text without a minus sign. -/
def intBase16 (s : List Char) : Option Nat :=
  let s := strip s
  let s := match s with
    | '+' :: cs => cs
    | cs => cs
  match s with
  | '0' :: 'x' :: '_' :: cs => hexDigits 0 false cs
  | '0' :: 'X' :: '_' :: cs => hexDigits 0 false cs
  | '0' :: 'x' :: cs => hexDigits 0 false cs
  | '0' :: 'X' :: cs => hexDigits 0 false cs
  | cs => hexDigits 0 false cs

/-- The decimal digits of `int(s)` on a text without a sign. -/
def decDigits (acc : Nat) (afterDigit : Bool) : List Char → Option Nat
  | [] => if afterDigit then some acc else none
  | c :: cs =>
    if c = '_' then (if afterDigit then decDigits acc false cs else none)
    else if '0' ≤ c ∧ c ≤ '9' then decDigits (acc * 10 + (c.toNat - '0'.toNat)) true cs
    else none

end Text

open Text

/-- `uuid.UUID(text)`, `none` where it raises `ValueError`. -/
def parseUuid (value : String) : Option Uuid :=
  let hex := removeAll "urn:".toList 0 value.toList
  let hex := removeAll "uuid:".toList 0 hex
  let hex := (stripBy (fun c => c = '{' || c = '}') hex).filter (· ≠ '-')
  if hex.length = 32 then intBase16 hex else none

/-- The last `n` hexadecimal digits of a number, most significant first. -/
def hexText : Nat → Nat → List Char
  | 0, _ => []
  | n + 1, v => hexText n (v / 16) ++ [Nat.digitChar (v % 16)]

/-- `str(uuid)`: 32 hexadecimal digits, grouped 8-4-4-4-12. -/
def uuidStr (u : Uuid) : String :=
  let h := hexText 32 u
  String.ofList (h.take 8 ++ ['-'] ++ (h.drop 8).take 4 ++ ['-'] ++ (h.drop 12).take 4 ++ ['-'] ++
    (h.drop 16).take 4 ++ ['-'] ++ h.drop 20)

/-! ## Reading an identifier back -/

namespace Text

/-- A lower-case hexadecimal digit. -/
def IsHex (c : Char) : Prop := ∃ d < 16, c = Nat.digitChar d

theorem hexDigit_digitChar : ∀ d < 16, hexDigit (Nat.digitChar d) = some d := by decide

theorem IsHex.ne {c x : Char} (h : IsHex c) (hx : ∀ d < 16, Nat.digitChar d ≠ x) : c ≠ x := by
  obtain ⟨d, hd, rfl⟩ := h
  exact hx d hd

theorem IsHex.not_space {c : Char} (h : IsHex c) : isSpace c = false := by
  obtain ⟨d, hd, rfl⟩ := h
  exact (by decide : ∀ d < 16, isSpace (Nat.digitChar d) = false) d hd

theorem isHex_hexText {n v : Nat} : ∀ c ∈ hexText n v, IsHex c := by
  induction n generalizing v with
  | zero => exact fun c hc => by cases hc
  | succ n ih =>
    intro c hc
    rcases List.mem_append.mp hc with hc | hc
    · exact ih c hc
    · exact ⟨v % 16, Nat.mod_lt _ (by decide), List.mem_singleton.mp hc⟩

theorem length_hexText (n v : Nat) : (hexText n v).length = n := by
  induction n generalizing v with
  | zero => rfl
  | succ n ih => rw [hexText, List.length_append, ih]; rfl

/-- A pattern whose first character does not occur is not found. -/
theorem removeAll_of_not_mem {p : Char} {ps s : List Char} (h : p ∉ s) :
    removeAll (p :: ps) 0 s = s := by
  induction s with
  | nil => rfl
  | cons c cs ih =>
    rw [List.mem_cons, not_or] at h
    have hprefix : (p :: ps).isPrefixOf (c :: cs) = false := by
      simp [List.isPrefixOf, h.1]
    simp only [removeAll, hprefix, ih h.2]
    rfl

/-- Nothing is stripped from a text without characters of the set. -/
theorem stripBy_of_forall {p : Char → Bool} {s : List Char} (h : ∀ c ∈ s, p c = false) :
    stripBy p s = s := by
  have hdrop : ∀ l : List Char, (∀ c ∈ l, p c = false) → l.dropWhile p = l := by
    intro l hl
    cases l with
    | nil => rfl
    | cons c cs => simp [hl c List.mem_cons_self]
  rw [stripBy, hdrop s h, hdrop _ fun c hc => h c (List.mem_reverse.mp hc), List.reverse_reverse]

/-- The text before the first separator, and the text after it. -/
theorem partition_append {sep : Char} {s t : List Char} (h : sep ∉ s) :
    partition sep (s ++ sep :: t) = (s, t) := by
  induction s with
  | nil => simp [partition]
  | cons c cs ih =>
    rw [List.mem_cons, not_or] at h
    simp [partition, Ne.symm h.1, ih h.2]

/-- The digits of a number are read back. -/
theorem hexDigits_hexText {n v acc : Nat} {after : Bool} {rest : List Char} :
    hexDigits acc after (hexText n v ++ rest) =
      hexDigits (acc * 16 ^ n + v % 16 ^ n) (after || decide (0 < n)) rest := by
  induction n generalizing v rest with
  | zero => simp [hexText, Nat.mod_one]
  | succ n ih =>
    have hdigit : hexDigit (Nat.digitChar (v % 16)) = some (v % 16) :=
      hexDigit_digitChar _ (Nat.mod_lt _ (by decide))
    have hne : Nat.digitChar (v % 16) ≠ '_' :=
      IsHex.ne ⟨v % 16, Nat.mod_lt _ (by decide), rfl⟩ (by decide)
    have hvalue : (acc * 16 ^ n + v / 16 % 16 ^ n) * 16 + v % 16 =
        acc * 16 ^ (n + 1) + v % 16 ^ (n + 1) := by
      rw [Nat.pow_succ, Nat.mul_comm (16 ^ n) 16, Nat.mod_mul, Nat.add_mul, Nat.mul_assoc,
        Nat.mul_comm (16 ^ n) 16, Nat.mul_comm (v / 16 % 16 ^ n)]
      omega
    rw [hexText, List.append_assoc, ih]
    show hexDigits _ _ (Nat.digitChar (v % 16) :: rest) = _
    rw [hexDigits, if_neg hne, hdigit]
    simp [hvalue]

theorem intBase16_of_isHex {s : List Char} (hs : ∀ c ∈ s, IsHex c) :
    intBase16 s = hexDigits 0 false s := by
  have hstrip : strip s = s := stripBy_of_forall fun c hc => (hs c hc).not_space
  unfold intBase16
  rw [hstrip]
  dsimp only
  match s with
  | [] => rfl
  | [c] =>
    have hplus : c ≠ '+' := (hs c (by simp)).ne (by decide)
    split <;> simp_all
  | c :: c' :: cs =>
    have hplus : c ≠ '+' := (hs c (by simp)).ne (by decide)
    have hx : c' ≠ 'x' := (hs c' (by simp)).ne (by decide)
    have hX : c' ≠ 'X' := (hs c' (by simp)).ne (by decide)
    have hsign : (match c :: c' :: cs with | '+' :: cs => cs | cs => cs) = c :: c' :: cs := by
      split <;> simp_all
    rw [hsign]
    split <;> simp_all

end Text

/-- An identifier has 128 bits. -/
def IsUuid (u : Uuid) : Prop := u < 2 ^ 128

theorem isHex_uuidStr {u : Uuid} {c : Char} (hc : c ∈ (uuidStr u).toList) :
    IsHex c ∨ c = '-' := by
  have hsub : ∀ {l : List Char}, l ⊆ hexText 32 u → c ∈ l → IsHex c :=
    fun hl hc => isHex_hexText c (hl hc)
  rw [uuidStr, String.toList_ofList] at hc
  simp only [List.mem_append, List.mem_singleton] at hc
  rcases hc with (((((((hc | hc) | hc) | hc) | hc) | hc) | hc) | hc) | hc
  · exact .inl (hsub (List.take_subset _ _) hc)
  · exact .inr hc
  · exact .inl (hsub (fun x hx => List.mem_of_mem_drop (List.mem_of_mem_take hx)) hc)
  · exact .inr hc
  · exact .inl (hsub (fun x hx => List.mem_of_mem_drop (List.mem_of_mem_take hx)) hc)
  · exact .inr hc
  · exact .inl (hsub (fun x hx => List.mem_of_mem_drop (List.mem_of_mem_take hx)) hc)
  · exact .inr hc
  · exact .inl (hsub (List.drop_subset _ _) hc)

theorem not_mem_uuidStr {u : Uuid} {x : Char} (hx : ∀ d < 16, Nat.digitChar d ≠ x)
    (hdash : x ≠ '-') : x ∉ (uuidStr u).toList := by
  intro hmem
  rcases isHex_uuidStr hmem with h | h
  · exact h.ne hx rfl
  · exact hdash h

/-- The canonical text without its hyphens. -/
theorem filter_uuidStr (u : Uuid) : (uuidStr u).toList.filter (· ≠ '-') = hexText 32 u := by
  have hkeep : ∀ l : List Char, l ⊆ hexText 32 u → l.filter (· ≠ '-') = l := by
    intro l hl
    refine List.filter_eq_self.mpr fun c hc => ?_
    simpa using (isHex_hexText c (hl hc)).ne (by decide)
  set h := hexText 32 u with hh
  have hsplit : h = h.take 8 ++ ((h.drop 8).take 4 ++ ((h.drop 12).take 4 ++ ((h.drop 16).take 4 ++
      h.drop 20))) := by
    have hdrop : ∀ a b : Nat, (h.drop a).take b ++ h.drop (a + b) = h.drop a := by
      intro a b
      rw [← List.drop_drop]
      exact List.take_append_drop b (h.drop a)
    rw [hdrop 16 4, hdrop 12 4, hdrop 8 4, List.take_append_drop]
  rw [uuidStr, String.toList_ofList]
  simp only [List.filter_append, ← hh]
  rw [hkeep _ (List.take_subset _ _),
    hkeep _ fun x hx => List.mem_of_mem_drop (List.mem_of_mem_take hx),
    hkeep _ fun x hx => List.mem_of_mem_drop (List.mem_of_mem_take hx),
    hkeep _ fun x hx => List.mem_of_mem_drop (List.mem_of_mem_take hx),
    hkeep _ (List.drop_subset _ _)]
  conv_rhs => rw [hsplit]
  simp

/-- **Round trip**: the canonical text of an identifier is read back as that identifier. -/
theorem parseUuid_uuidStr {u : Uuid} (hu : IsUuid u) : parseUuid (uuidStr u) = some u := by
  have hfree : ∀ {x : Char}, (∀ d < 16, Nat.digitChar d ≠ x) → x ≠ '-' →
      x ∉ (uuidStr u).toList := not_mem_uuidStr
  have hu' : 'u' ∉ (uuidStr u).toList := hfree (by decide) (by decide)
  have hbraces : ∀ c ∈ (uuidStr u).toList, (decide (c = '{') || decide (c = '}')) = false := by
    intro c hc
    rw [Bool.or_eq_false_iff, decide_eq_false_iff_not, decide_eq_false_iff_not]
    exact ⟨fun h => hfree (by decide) (by decide) (h ▸ hc),
      fun h => hfree (by decide) (by decide) (h ▸ hc)⟩
  have hurn : removeAll "urn:".toList 0 (uuidStr u).toList = (uuidStr u).toList :=
    removeAll_of_not_mem hu'
  have huuid : removeAll "uuid:".toList 0 (uuidStr u).toList = (uuidStr u).toList :=
    removeAll_of_not_mem hu'
  have hmod : u % 16 ^ 32 = u := Nat.mod_eq_of_lt hu
  have hdigits := @hexDigits_hexText 32 u 0 false []
  rw [List.append_nil, hmod] at hdigits
  unfold parseUuid
  dsimp only
  rw [hurn, huuid, stripBy_of_forall hbraces, filter_uuidStr, if_pos (length_hexText 32 u),
    intBase16_of_isHex isHex_hexText, hdigits]
  simp [hexDigits]

/-- Different identifiers have different texts. -/
theorem uuidStr_injective {u v : Uuid} (hu : IsUuid u) (hv : IsUuid v) (h : uuidStr u = uuidStr v) :
    u = v := by
  have hparse := parseUuid_uuidStr hu
  rw [h, parseUuid_uuidStr hv] at hparse
  exact (Option.some.inj hparse).symm

end LmsBackend
