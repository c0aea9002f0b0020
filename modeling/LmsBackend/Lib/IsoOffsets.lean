import LmsBackend.Lib.IsoFormat

/-!
# The letter Z in a date-time

A text with an offset is a date, one separating character and a time of day with its offset. The
letter `Z` may be the last character, where it is the offset of UTC, or the separator; a text
with `+00:00` in its place is read in the first case and not in the second.

- `denotes`: the instant of a text that has an offset of its own.
- `parse_of_utc`: at the end, `Z` and `+00:00` are the same.
- `parse_separated`: between a date and a time, `+00:00` is no separator.
- `position_of_Z`: these are the two places.
-/

namespace IsoFormat

/-- The instant that a text denotes as a date-time with an offset, to the microsecond. -/
def denotes (cs : List Char) : Option Int := (parse cs).bind fun t => t.utc fun _ => none

/-! ## Characters -/

theorem isDigit_of_number {cs : List Char} {n : Nat} (h : number cs = some n) :
    ∀ c ∈ cs, c.isDigit = true := by
  unfold number at h
  split at h
  · rename_i hdigits
    exact List.all_eq_true.mp hdigits.2
  · cases h

theorem isDigit_of_digits {n m : Nat} {cs : List Char} (h : digits n cs = some m) :
    ∀ c ∈ cs, c.isDigit = true := by
  unfold digits at h
  split at h
  · exact isDigit_of_number h
  · cases h

theorem twoDigits_eq {cs rest : List Char} {n : Nat} (h : twoDigits cs = some (n, rest)) :
    ∃ a b, cs = a :: b :: rest ∧ a.isDigit = true ∧ b.isDigit = true := by
  match cs, h with
  | a :: b :: rest', h =>
    obtain ⟨m, hm, heq⟩ := Option.map_eq_some_iff.mp h
    cases heq
    have hdigits := isDigit_of_number hm
    exact ⟨a, b, rfl, hdigits a (by simp), hdigits b (by simp)⟩

/-- A character of a time of day. -/
def IsClock (c : Char) : Prop := c.isDigit = true ∨ c = ':' ∨ c = '.' ∨ c = ','

theorem nextPart_eq {sep : Bool} {cs rest : List Char} {n : Nat}
    (h : nextPart sep cs = some (n, rest)) : ∃ part, cs = part ++ rest ∧ ∀ c ∈ part, IsClock c := by
  unfold nextPart at h
  split at h
  · split at h
    · rename_i rest'
      obtain ⟨a, b, rfl, ha, hb⟩ := twoDigits_eq h
      exact ⟨[':', a, b], rfl, by simp [IsClock, ha, hb]⟩
    · cases h
  · obtain ⟨a, b, rfl, ha, hb⟩ := twoDigits_eq h
    exact ⟨[a, b], rfl, by simp [IsClock, ha, hb]⟩

theorem isDigit_of_fraction {cs : List Char} {n : Nat} (h : fraction cs = some n) :
    ∀ c ∈ cs, c.isDigit = true := by
  unfold fraction at h
  split at h
  · exact List.all_eq_true.mp ‹_›
  · cases h

theorem isClock_of_parseParts {cs : List Char} {parts : Nat × Nat × Nat × Nat}
    (h : parseParts cs = some parts) : ∀ c ∈ cs, IsClock c := by
  unfold parseParts at h
  obtain ⟨⟨hour, rest₁⟩, hhour, hafter⟩ := Option.bind_eq_some_iff.mp h
  obtain ⟨a, b, rfl, ha, hb⟩ := twoDigits_eq hhour
  suffices hrest : ∀ c ∈ rest₁, IsClock c by
    intro c hc
    rcases List.mem_cons.mp hc with rfl | hc
    · exact .inl ha
    · rcases List.mem_cons.mp hc with rfl | hc
      · exact .inl hb
      · exact hrest c hc
  dsimp only at hafter
  split at hafter
  · rename_i hnil
    rw [hnil]
    exact fun c hc => absurd hc List.not_mem_nil
  obtain ⟨⟨minute, rest₂⟩, hminute, hlast⟩ := Option.bind_eq_some_iff.mp hafter
  obtain ⟨part, rfl, hpart⟩ := nextPart_eq hminute
  suffices hrest : ∀ c ∈ rest₂, IsClock c by
    intro c hc
    exact (List.mem_append.mp hc).elim (hpart c) (hrest c)
  dsimp only at hlast
  split at hlast
  · rename_i hnil
    rw [hnil]
    exact fun c hc => absurd hc List.not_mem_nil
  obtain ⟨⟨second, rest₃⟩, hsecond, hmark⟩ := Option.bind_eq_some_iff.mp hlast
  obtain ⟨part', rfl, hpart'⟩ := nextPart_eq hsecond
  suffices hrest : ∀ c ∈ rest₃, IsClock c by
    intro c hc
    exact (List.mem_append.mp hc).elim (hpart' c) (hrest c)
  dsimp only at hmark
  split at hmark
  · exact fun c hc => absurd hc List.not_mem_nil
  · rename_i mark rest
    split at hmark
    · rename_i hpoint
      obtain ⟨n, hfraction, -⟩ := Option.bind_eq_some_iff.mp hmark
      intro c hc
      rcases List.mem_cons.mp hc with rfl | hc
      · exact .inr (.inr hpoint)
      · exact .inl (isDigit_of_fraction hfraction c hc)
    · cases hmark

theorem not_mem_of_digits {n m : Nat} {cs : List Char} (h : digits n cs = some m) : 'Z' ∉ cs :=
  fun hZ => absurd (isDigit_of_digits h _ hZ) (by decide)

theorem not_mem_of_split {n : Nat} {c : Char} {cs : List Char} (htake : c ∉ cs.take n)
    (hdrop : c ∉ cs.drop n) : c ∉ cs := by
  rw [← List.take_append_drop n cs, List.mem_append]
  exact not_or.mpr ⟨htake, hdrop⟩

/-- A date has no `Z`. -/
theorem not_mem_of_parseDate {cs : List Char} {n : Nat} (h : parseDate cs = some n) :
    'Z' ∉ cs := by
  unfold parseDate at h
  obtain ⟨year, hyear, hafter⟩ := Option.bind_eq_some_iff.mp h
  refine not_mem_of_split (not_mem_of_digits hyear) ?_
  suffices hrest : 'Z' ∉ cs.drop (if dashed cs then 5 else 4) by
    by_cases hsep : dashed cs = true
    · rw [if_pos hsep] at hrest
      obtain ⟨hlt, hget⟩ := List.getElem?_eq_some_iff.mp (of_decide_eq_true hsep)
      rw [List.drop_eq_getElem_cons hlt, hget]
      simpa using hrest
    · rw [if_neg hsep] at hrest
      exact hrest
  dsimp only at hafter
  split at hafter
  · rename_i rest hweeks
    rw [hweeks, List.mem_cons, not_or]
    refine ⟨by decide, ?_⟩
    obtain ⟨week, hweek, hday⟩ := Option.bind_eq_some_iff.mp hafter
    refine not_mem_of_split (not_mem_of_digits hweek) ?_
    split at hday
    · rename_i hnil
      rw [hnil]
      exact List.not_mem_nil
    · rename_i c rest' hcons
      rw [hcons]
      split at hday
      · split at hday
        · rename_i hdash
          obtain ⟨d, hd, -⟩ := Option.bind_eq_some_iff.mp hday
          rw [List.mem_cons, not_or, hdash]
          exact ⟨by decide, not_mem_of_digits hd⟩
        · cases hday
      · obtain ⟨d, hd, -⟩ := Option.bind_eq_some_iff.mp hday
        exact not_mem_of_digits hd
  · obtain ⟨month, hmonth, hday⟩ := Option.bind_eq_some_iff.mp hafter
    refine not_mem_of_split (not_mem_of_digits hmonth) ?_
    split at hday
    · cases hday
    · rename_i c rest' hcons
      rw [hcons]
      split at hday
      · split at hday
        · rename_i hdash
          obtain ⟨d, hd, -⟩ := Option.bind_eq_some_iff.mp hday
          rw [List.mem_cons, not_or, hdash]
          exact ⟨by decide, not_mem_of_digits hd⟩
        · cases hday
      · obtain ⟨d, hd, -⟩ := Option.bind_eq_some_iff.mp hday
        exact not_mem_of_digits hd

/-! ## Times with an offset -/

/-- The mark that ends a time of day. -/
def isMark (c : Char) : Bool := c = '+' || c = '-' || c = 'Z'

theorem IsClock.not_mark {c : Char} (h : IsClock c) : isMark c = false := by
  have hdigit : ∀ m : Char, m.isDigit = false → c.isDigit = true → c ≠ m := by
    rintro m hm hc rfl
    cases hm.symm.trans hc
  rcases h with hc | rfl | rfl | rfl
  · simp [isMark, hdigit '+' (by decide) hc, hdigit '-' (by decide) hc,
      hdigit 'Z' (by decide) hc]
  · decide
  · decide
  · decide

theorem parseTime_eq (cs : List Char) : parseTime cs =
    (parseClock (cs.takeWhile fun c => !isMark c)).bind fun clock =>
      (parseOffset (cs.dropWhile fun c => !isMark c)).map fun offset => (clock, offset) := by
  have hmarks : (fun c : Char => decide (c ≠ '+') && decide (c ≠ '-') && decide (c ≠ 'Z')) =
      fun c => !isMark c := by
    funext c
    simp [isMark, Bool.and_assoc]
  unfold parseTime
  dsimp only
  rw [hmarks]
  cases parseClock (cs.takeWhile fun c => !isMark c) with
  | none => rfl
  | some clock =>
    cases parseOffset (cs.dropWhile fun c => !isMark c) with
    | none => rfl
    | some offset => rfl

/-- A time of day ends where its offset begins. -/
theorem parseTime_append {body tail : List Char} {mark : Char} (hbody : ∀ c ∈ body, IsClock c)
    (hmark : isMark mark = true) : parseTime (body ++ mark :: tail) =
      (parseClock body).bind fun clock =>
        (parseOffset (mark :: tail)).map fun offset => (clock, offset) := by
  have hclock : ∀ c ∈ body, (!isMark c) = true := by
    intro c hc
    rw [(hbody c hc).not_mark]
    rfl
  rw [parseTime_eq, List.takeWhile_append_of_pos hclock, List.dropWhile_append_of_pos hclock,
    List.takeWhile_cons_of_neg (by simp [hmark]), List.dropWhile_cons_of_neg (by simp [hmark]),
    List.append_nil]

/-- A time with an offset: digits first, and `Z` at the end or nowhere. -/
theorem parseTime_offset {cs : List Char} {clock offset : Int}
    (h : parseTime cs = some (clock, some offset)) :
    ∃ d₁ d₂ body, d₁.isDigit = true ∧ (∀ c ∈ d₁ :: d₂ :: body, IsClock c) ∧
      (cs = d₁ :: d₂ :: body ++ ['Z'] ∨
        ∃ sign ds, cs = d₁ :: d₂ :: body ++ sign :: ds ∧ 'Z' ∉ sign :: ds) := by
  rw [parseTime_eq] at h
  obtain ⟨clock', hclock, h⟩ := Option.bind_eq_some_iff.mp h
  obtain ⟨offset', hoffset, heq⟩ := Option.map_eq_some_iff.mp h
  cases heq
  obtain ⟨parts, hparts, -⟩ := Option.bind_eq_some_iff.mp hclock
  have hbody := isClock_of_parseParts hparts
  obtain ⟨⟨hour, rest⟩, hhour, -⟩ := Option.bind_eq_some_iff.mp hparts
  obtain ⟨d₁, d₂, htake, hd₁, -⟩ := twoDigits_eq hhour
  have hcs := List.takeWhile_append_dropWhile (p := fun c => !isMark c) (l := cs)
  rw [htake] at hbody hcs
  refine ⟨d₁, d₂, rest, hd₁, hbody, ?_⟩
  rw [← hcs]
  cases htail : cs.dropWhile fun c => !isMark c with
  | nil =>
    rw [htail] at hoffset
    cases hoffset
  | cons sign ds =>
    rw [htail] at hoffset
    by_cases hsign : sign = 'Z'
    · subst hsign
      cases ds with
      | nil => exact .inl rfl
      | cons c ds => cases hoffset
    · refine .inr ⟨sign, ds, rfl, ?_⟩
      rw [List.mem_cons, not_or]
      refine ⟨Ne.symm hsign, fun hZ => ?_⟩
      have hparts' : ∃ parts', parseParts ds = some parts' := by
        unfold parseOffset at hoffset
        split at hoffset
        · cases ‹_ = []›
        · cases ‹_ = ['Z']›
          exact absurd rfl hsign
        · exact absurd (List.cons.inj ‹_›).1 hsign
        · obtain ⟨parts', hparts', -⟩ := Option.bind_eq_some_iff.mp hoffset
          rename_i hcons
          rw [(List.cons.inj hcons).2]
          exact ⟨parts', hparts'⟩
      obtain ⟨parts', hparts'⟩ := hparts'
      have hclock := (isClock_of_parseParts hparts' _ hZ).not_mark
      cases hclock

/-! ## Dates and what follows -/

/-- A date has 7, 8 or 10 characters; with dashes, not 7 of a longer text. -/
theorem dateLength_cases {cs : List Char} {n : Nat} (hlen : 7 < cs.length)
    (h : dateLength cs = some n) : n = 7 ∧ dashed cs = false ∨ n = 8 ∨ n = 10 := by
  unfold dateLength at h
  rw [if_neg (by omega : cs.length ≠ 7)] at h
  by_cases hdash : dashed cs = true
  · rw [if_pos hdash] at h
    split at h
    · split at h
      · split at h
        · cases h
        · split at h <;> cases h <;> simp
      · cases h
        simp
    · cases h
      simp
  · rw [if_neg hdash] at h
    split at h
    · cases h
      have hplain : dashed cs = false := eq_false_of_ne_true hdash
      simp only [hplain, and_true]
      split
      · omega
      · split <;> omega
    · cases h
      simp

/-- Where a date ends is decided by a few characters. -/
theorem dateLength_congr {cs cs' : List Char} (hlen : 9 < cs.length) (hlen' : 9 < cs'.length)
    (h4 : cs[4]? = cs'[4]?) (h5 : cs[5]? = cs'[5]?)
    (h8 : dashed cs = true → (cs[8]? = some '-' ↔ cs'[8]? = some '-'))
    (h10 : dashed cs = true → cs[8]? = some '-' →
      (cs[10]?).any Char.isDigit = (cs'[10]?).any Char.isDigit)
    (hdigits : (cs.drop 7).takeWhile Char.isDigit = (cs'.drop 7).takeWhile Char.isDigit) :
    dateLength cs = dateLength cs' := by
  have hdashed : dashed cs = dashed cs' := by
    unfold dashed
    rw [h4]
  unfold dateLength
  rw [if_neg (by omega : cs.length ≠ 7), if_neg (by omega : cs'.length ≠ 7), ← hdashed, ← h4, ← h5,
    ← hdigits]
  by_cases hdash : dashed cs = true
  · rw [if_pos hdash, if_pos hdash, if_neg (by omega : cs.length ≠ 9),
      if_neg (by omega : cs'.length ≠ 9)]
    by_cases hday : cs[8]? = some '-'
    · rw [if_pos hday, if_pos ((h8 hdash).mp hday), h10 hdash hday]
    · rw [if_neg hday, if_neg (mt (h8 hdash).mpr hday)]
  · rw [if_neg hdash, if_neg hdash]

/-- The date, the separator and the time of a text. -/
theorem parse_split {ds time : List Char} {sep : Char} (hlen : 7 ≤ ds.length)
    (hdate : dateLength (ds ++ sep :: time) = some ds.length) (htime : time ≠ []) :
    parse (ds ++ sep :: time) = (parseDate ds).bind fun date =>
      (parseTime time).map fun r => ⟨(date - 1 : Int) * day + r.1, r.2⟩ := by
  have hlong : ¬ (ds ++ sep :: time).length < 7 := by
    rw [List.length_append]
    omega
  have hdrop : (ds ++ sep :: time).drop (ds.length + 1) = time := by
    rw [List.drop_append]
    simp
  unfold parse
  rw [if_neg hlong, hdate]
  show ((parseDate ((ds ++ sep :: time).take ds.length)).bind _) = _
  rw [List.take_left, hdrop]
  cases parseDate ds with
  | none => rfl
  | some date =>
    cases time with
    | nil => exact absurd rfl htime
    | cons c time =>
      show (parseTime (c :: time)).bind _ = (parseTime (c :: time)).map _
      cases parseTime (c :: time) with
      | none => rfl
      | some r => rfl

/-- A text with an offset has a date, a separator and a time with an offset. -/
theorem parse_offset {cs : List Char} {t : DateTime} (h : parse cs = some t)
    (hoffset : t.offset ≠ none) : ∃ ds sep time date clock offset, cs = ds ++ sep :: time ∧
      7 ≤ ds.length ∧ dateLength cs = some ds.length ∧ parseDate ds = some date ∧
      parseTime time = some (clock, some offset) := by
  unfold parse at h
  split at h
  · cases h
  rename_i hlong
  obtain ⟨n, hn, h⟩ := Option.bind_eq_some_iff.mp h
  obtain ⟨date, hdate, h⟩ := Option.bind_eq_some_iff.mp h
  split at h
  · cases h
    exact absurd rfl hoffset
  · rename_i htime
    obtain ⟨r, hr, h⟩ := Option.bind_eq_some_iff.mp h
    cases h
    obtain ⟨offset, hsome⟩ := Option.ne_none_iff_exists'.mp hoffset
    have hne : cs.drop (n + 1) ≠ [] := htime
    have hlt : n < cs.length := by
      by_contra hge
      exact hne (List.drop_eq_nil_of_le (by omega))
    have hseven : 7 ≤ n := by
      by_cases hseven : cs.length = 7
      · unfold dateLength at hn
        rw [if_pos hseven] at hn
        cases hn
        exact Nat.le_refl 7
      · rcases dateLength_cases (by omega) hn with ⟨rfl, -⟩ | rfl | rfl <;> omega
    refine ⟨cs.take n, cs[n], cs.drop (n + 1), date, r.1, offset, ?_, ?_, ?_, hdate, ?_⟩
    · rw [← List.drop_eq_getElem_cons hlt, List.take_append_drop]
    · rw [List.length_take]
      omega
    · rw [hn, List.length_take, Nat.min_eq_left (Nat.le_of_lt hlt)]
    · rw [hr]
      exact congrArg some (Prod.ext rfl hsome)

/-! ## Z and +00:00 -/

theorem takeWhile_stop {α : Type} {p : α → Bool} {l l' : List α} {a : α} (h : p a = false) :
    (l ++ a :: l').takeWhile p = l.takeWhile p := by
  induction l with
  | nil => simp [h]
  | cons b l ih =>
    by_cases hb : p b = true
    · rw [List.cons_append, List.takeWhile_cons_of_pos hb, List.takeWhile_cons_of_pos hb, ih]
    · rw [List.cons_append, List.takeWhile_cons_of_neg hb, List.takeWhile_cons_of_neg hb]

/-- At the end of a text with an offset, `Z` and `+00:00` are the same. -/
theorem parse_of_utc {cs : List Char} {t : DateTime} (h : parse (cs ++ ['Z']) = some t)
    (hoffset : t.offset ≠ none) :
    parse (cs ++ ['+', '0', '0', ':', '0', '0']) = some t := by
  obtain ⟨ds, sep, time, date, clock, offset, hcs, hseven, hdate, -, htime⟩ :=
    parse_offset h hoffset
  obtain ⟨d₁, d₂, body, -, hbody, htail⟩ := parseTime_offset htime
  have hutc : time = d₁ :: d₂ :: body ++ ['Z'] := by
    rcases htail with htail | ⟨sign, rest, htail, hZ⟩
    · exact htail
    · -- the last character of the text is that of the offset
      refine absurd ?_ hZ
      have hlast : (cs ++ ['Z']).getLast? = (sign :: rest).getLast? := by
        rw [hcs, htail]
        simp [List.getLast?_cons]
      rw [List.getLast?_concat] at hlast
      exact List.mem_of_getLast? hlast.symm
  have hbefore : cs = ds ++ sep :: d₁ :: d₂ :: body := by
    rw [hutc] at hcs
    exact List.append_cancel_right (hcs.trans (by simp : _ = (ds ++ sep :: d₁ :: d₂ :: body) ++ ['Z']))
  have hlen : 10 ≤ cs.length := by
    rw [hbefore]
    simp
    omega
  have hsame : ∀ i < cs.length, (cs ++ ['Z'])[i]? =
      (cs ++ ['+', '0', '0', ':', '0', '0'])[i]? := by
    intro i hi
    rw [List.getElem?_append_left hi, List.getElem?_append_left hi]
  have hlength : dateLength (cs ++ ['Z']) = dateLength (cs ++ ['+', '0', '0', ':', '0', '0']) := by
    refine dateLength_congr (by simp; omega) (by simp; omega) (hsame 4 (by omega))
      (hsame 5 (by omega)) (fun _ => by rw [hsame 8 (by omega)]) (fun _ _ => ?_) ?_
    · by_cases hten : cs.length = 10
      · rw [← hten, List.getElem?_concat_length, List.getElem?_append_right (Nat.le_refl _)]
        simp only [Nat.sub_self, List.getElem?_cons_zero]
        decide
      · rw [hsame 10 (by omega)]
    · rw [List.drop_append_of_le_length (by omega), List.drop_append_of_le_length (by omega),
        takeWhile_stop (by decide), takeWhile_stop (by decide)]
  have htimes : parseTime (d₁ :: d₂ :: body ++ ['Z']) =
      parseTime (d₁ :: d₂ :: body ++ ['+', '0', '0', ':', '0', '0']) := by
    have hzero : parseOffset ['+', '0', '0', ':', '0', '0'] = parseOffset ['Z'] := by
      decide +kernel
    rw [parseTime_append hbody (by decide), parseTime_append hbody (by decide), hzero]
  have hassoc : ∀ tail : List Char, cs ++ tail = ds ++ sep :: (d₁ :: d₂ :: body ++ tail) := by
    intro tail
    rw [hbefore]
    simp
  have hdate' := hdate
  rw [hlength] at hdate'
  rw [hassoc] at h hdate hdate' ⊢
  rw [parse_split hseven hdate (by simp), htimes] at h
  rw [parse_split hseven hdate' (by simp)]
  exact h

/-- Between a date and a time, `+00:00` is no separator: the time of day would have a minute of
more than two digits. -/
theorem parse_separated {ds rest rest' : List Char} {d d' : Char} (hseven : 7 ≤ ds.length)
    (hdate : dateLength (ds ++ 'Z' :: d' :: rest') = some ds.length) (hrest : rest' ≠ [])
    (hd : d.isDigit = true) :
    parse (ds ++ '+' :: '0' :: '0' :: ':' :: '0' :: '0' :: d :: rest) = none := by
  have hlength : dateLength (ds ++ 'Z' :: d' :: rest') =
      dateLength (ds ++ '+' :: '0' :: '0' :: ':' :: '0' :: '0' :: d :: rest) := by
    have hrest' : 0 < rest'.length := List.length_pos_iff.mpr hrest
    have hsame : ∀ i < ds.length, (ds ++ 'Z' :: d' :: rest')[i]? =
        (ds ++ '+' :: '0' :: '0' :: ':' :: '0' :: '0' :: d :: rest)[i]? := by
      intro i hi
      rw [List.getElem?_append_left hi, List.getElem?_append_left hi]
    have hsep : ∀ {c : Char} {tail : List Char}, (ds ++ c :: tail)[ds.length]? = some c := by
      intro c tail
      rw [List.getElem?_append_right (Nat.le_refl _), Nat.sub_self]
      rfl
    have hcases := dateLength_cases (by simp; omega) hdate
    refine dateLength_congr (by simp; omega) (by simp; omega) (hsame 4 (by omega))
      (hsame 5 (by omega)) (fun hdash => ?_) (fun hdash hday => ?_) ?_
    · rcases hcases with ⟨-, hplain⟩ | height | hten
      · cases hplain.symm.trans hdash
      · rw [← height, hsep, hsep]
        decide
      · rw [hsame 8 (by omega)]
    · rcases hcases with ⟨-, hplain⟩ | height | hten
      · cases hplain.symm.trans hdash
      · rw [← height, hsep] at hday
        cases hday
      · rw [← hten, hsep, hsep]
        decide
    · rw [List.drop_append_of_le_length hseven, List.drop_append_of_le_length hseven,
        takeWhile_stop (by decide), takeWhile_stop (by decide)]
  rw [hlength] at hdate
  rw [parse_split hseven hdate (by simp)]
  have htime : parseTime ('0' :: '0' :: ':' :: '0' :: '0' :: d :: rest) = none := by
    have hmark : ∀ c ∈ ['0', '0', ':', '0', '0', d], (!isMark c) = true := by
      intro c hc
      have hclock : IsClock c := by
        simp only [List.mem_cons, List.not_mem_nil, or_false] at hc
        rcases hc with rfl | rfl | rfl | rfl | rfl | rfl
        · exact .inl (by decide)
        · exact .inl (by decide)
        · exact .inr (.inl rfl)
        · exact .inl (by decide)
        · exact .inl (by decide)
        · exact .inl hd
      rw [hclock.not_mark]
      rfl
    have hcolon : d ≠ ':' := by
      rintro rfl
      cases hd
    have hclock : ∀ tail, parseClock ('0' :: '0' :: ':' :: '0' :: '0' :: d :: tail) = none := by
      intro tail
      unfold parseClock parseParts
      simp [twoDigits, number, nextPart, hcolon]
    rw [parseTime_eq]
    show (parseClock ((['0', '0', ':', '0', '0', d] ++ rest).takeWhile _)).bind _ = none
    rw [List.takeWhile_append_of_pos hmark]
    show (parseClock ('0' :: '0' :: ':' :: '0' :: '0' :: d :: _)).bind _ = none
    rw [hclock]
    rfl
  rw [htime]
  cases parseDate ds with
  | none => rfl
  | some date => rfl

/-- A `Z` that is not the last character of a text with an offset is its separator. -/
theorem position_of_Z {cs : List Char} {t : DateTime} (h : parse cs = some t)
    (hoffset : t.offset ≠ none) (hZ : 'Z' ∈ cs.dropLast) :
    ∃ ds d rest, cs = ds ++ 'Z' :: d :: rest ∧ 'Z' ∉ ds ∧ 7 ≤ ds.length ∧
      dateLength (ds ++ 'Z' :: d :: rest) = some ds.length ∧ rest ≠ [] ∧ d.isDigit = true := by
  obtain ⟨ds, sep, time, date, clock, offset, rfl, hseven, hdate, hparse, htime⟩ :=
    parse_offset h hoffset
  obtain ⟨d₁, d₂, body, hd₁, hbody, htail⟩ := parseTime_offset htime
  have hclock : 'Z' ∉ d₁ :: d₂ :: body := fun hmem => by
    cases (hbody _ hmem).not_mark
  have hds := not_mem_of_parseDate hparse
  have hne : time ≠ [] := by
    rcases htail with rfl | ⟨sign, rest, rfl, -⟩ <;> simp
  have hlast : 'Z' ∉ time.dropLast := by
    rcases htail with rfl | ⟨sign, rest, rfl, hsign⟩
    · rw [List.dropLast_concat]
      exact hclock
    · refine fun hmem => ?_
      rcases List.mem_append.mp (List.dropLast_subset _ hmem) with hmem | hmem
      · exact hclock hmem
      · exact hsign hmem
  have hdrop : (ds ++ sep :: time).dropLast = ds ++ sep :: time.dropLast := by
    rw [List.dropLast_append_of_ne_nil (by simp), List.dropLast_cons_of_ne_nil hne]
  rw [hdrop, List.mem_append, List.mem_cons] at hZ
  obtain rfl : 'Z' = sep := (hZ.resolve_left hds).resolve_right hlast
  obtain ⟨rest, rfl, hrest⟩ : ∃ rest, time = d₁ :: rest ∧ rest ≠ [] := by
    rcases htail with rfl | ⟨sign, rest, rfl, -⟩
    · exact ⟨_, rfl, by simp⟩
    · exact ⟨_, rfl, by simp⟩
  exact ⟨ds, d₁, rest, rfl, hds, hseven, hdate, hrest, hd₁⟩

theorem offset_of_denotes {cs : List Char} {x : Int} (h : denotes cs = some x) :
    ∃ t, parse cs = some t ∧ t.offset ≠ none ∧ ∀ naive, t.utc naive = some x := by
  obtain ⟨t, ht, hx⟩ := Option.bind_eq_some_iff.mp h
  have hoffset : t.offset ≠ none := by
    intro hnone
    rw [DateTime.utc, hnone] at hx
    cases hx
  refine ⟨t, ht, hoffset, fun naive => ?_⟩
  obtain ⟨offset, hsome⟩ := Option.ne_none_iff_exists'.mp hoffset
  rw [DateTime.utc, hsome] at hx ⊢
  exact hx

end IsoFormat
