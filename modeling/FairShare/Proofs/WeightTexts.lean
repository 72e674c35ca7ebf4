import FairShare.Config.WeightList
import Mathlib.Data.List.DropRight
import Mathlib.Data.List.Forall2
import Mathlib.Data.List.Induction

/-!
# What a weight list says

The grammar of weight lists, apart from the way in which they are read: what a numeral denotes,
which text remains when the blanks around it go, which tokens a text lists, and which configuration
or fault they stand for. The reader follows this grammar on every text. So the numerals of any
weights are read back as these weights, however they are padded.
-/

namespace FairShare

namespace Text

/-! ### Numerals and blanks -/

/-- A run of digits and the number that it denotes. -/
inductive Numeral : List Char → Nat → Prop
  | digit {d : Char} (hd : d.isDigit = true) : Numeral [d] (d.toNat - '0'.toNat)
  | snoc {l : List Char} {n : Nat} {d : Char} (h : Numeral l n) (hd : d.isDigit = true) :
      Numeral (l ++ [d]) (10 * n + (d.toNat - '0'.toNat))

/-- By induction on the digits from the last one, whose place is the lowest. -/
theorem numeral_iff {l : List Char} {n : Nat} :
    Numeral l n ↔ isNumeral l = true ∧ numeralValue l = n := by
  constructor
  · intro h
    induction h with
    | digit hd => simp [isNumeral, hd, numeralValue, Nat.ofDigitChars_cons]
    | snoc h hd ih =>
      obtain ⟨digits, rfl⟩ := ih
      simp_all [isNumeral, numeralValue, Nat.ofDigitChars_append, Nat.ofDigitChars_cons]
  · rintro ⟨digits, rfl⟩
    induction l using List.reverseRecOn with
    | nil => simp [isNumeral] at digits
    | append_singleton l d ih =>
      have hd : d.isDigit = true := ((isNumeral_iff _).mp digits).2 d (by simp)
      rcases eq_or_ne l [] with rfl | hl
      · simpa [numeralValue, Nat.ofDigitChars_cons] using Numeral.digit hd
      · have before : isNumeral l = true :=
          (isNumeral_iff l).mpr ⟨hl, fun c hc => ((isNumeral_iff _).mp digits).2 c (by simp [hc])⟩
        simpa [numeralValue, Nat.ofDigitChars_append, Nat.ofDigitChars_cons] using
          Numeral.snoc (ih before) hd

/-- The decimal numeral of a number denotes it. -/
theorem numeral_toDigits (n : Nat) : Numeral (Nat.toDigits 10 n) n := by
  refine numeral_iff.mpr ⟨(isNumeral_iff _).mpr ⟨Nat.toDigits_ne_nil, fun c hc => ?_⟩, ?_⟩
  · exact Nat.isDigit_of_mem_toDigits (by decide) (by decide) hc
  · exact Nat.ofDigitChars_ten_toDigits

theorem isBlank_of_mem_toDigits {c : Char} {n : Nat} (h : c ∈ Nat.toDigits 10 n) :
    isBlank c = false := by
  have bounds : 48 ≤ c.toNat ∧ c.toNat ≤ 57 :=
    Char.isDigit_iff_toNat.mp (Nat.isDigit_of_mem_toDigits (by decide) (by decide) h)
  simp only [isBlank, blankRanges, List.any_cons, List.any_nil, Bool.or_false, Bool.or_eq_false_iff,
    Bool.and_eq_false_iff, decide_eq_false_iff_not]
  omega

/-- The text `core` stands between blanks in `l`, and no blank is left at its ends. -/
structure Trimmed (l core : List Char) : Prop where
  around : ∃ before after, l = before ++ core ++ after ∧
    (∀ c ∈ before, isBlank c = true) ∧ ∀ c ∈ after, isBlank c = true
  first : ∀ c ∈ core.head?, isBlank c = false
  last : ∀ c ∈ core.getLast?, isBlank c = false

theorem trim_eq_rdropWhile (l : List Char) :
    trim l = (l.dropWhile isBlank).rdropWhile isBlank := rfl

/-- What is trimmed off the text is blank, and what stays has no blank at its ends. -/
theorem trimmed_trim (l : List Char) : Trimmed l (trim l) := by
  have inner : l.dropWhile isBlank = trim l ++ (l.dropWhile isBlank).rtakeWhile isBlank :=
    List.rdropWhile_append_rtakeWhile.symm
  refine ⟨⟨l.takeWhile isBlank, (l.dropWhile isBlank).rtakeWhile isBlank, ?_, ?_, ?_⟩, ?_, ?_⟩
  · rw [List.append_assoc, ← inner, List.takeWhile_append_dropWhile]
  · exact fun c hc => List.mem_takeWhile_imp hc
  · exact fun c hc => List.mem_rtakeWhile_imp hc
  · intro c hc
    have front : (l.dropWhile isBlank).head? = some c := by
      rw [inner, List.head?_append, Option.mem_def.mp hc, Option.some_or]
    simpa [front] using List.head?_dropWhile_not isBlank l
  · intro c hc
    obtain ⟨hne, rfl⟩ := List.mem_getLast?_eq_getLast hc
    exact Bool.eq_false_iff.mpr (List.rdropWhile_last_not isBlank _ hne)

/-- The inner text stays, since the blanks before and after it go and its ends stop the trimming. -/
theorem Trimmed.trim_eq {l core : List Char} (h : Trimmed l core) : trim l = core := by
  obtain ⟨before, after, rfl, hb, ha⟩ := h.around
  rw [trim_eq_rdropWhile, List.append_assoc, List.dropWhile_append_of_pos hb]
  cases core with
  | nil => simp [List.dropWhile_eq_nil_iff.mpr ha]
  | cons c core =>
    have stays : isBlank c = false := h.first c rfl
    rw [List.cons_append, List.dropWhile_cons_of_neg (by simp [stays]), ← List.cons_append]
    calc (c :: core ++ after).rdropWhile isBlank
        = (c :: core).rdropWhile isBlank := by
          rw [List.rdropWhile, List.reverse_append,
            List.dropWhile_append_of_pos (by simpa using ha), List.rdropWhile]
      _ = c :: core :=
          List.rdropWhile_eq_self_iff.mpr fun hne => by
            simp [h.last _ (List.getLast?_eq_some_getLast hne)]

/-- There is one way to take the blanks at the ends off a text. -/
theorem trim_eq_iff {l core : List Char} : trim l = core ↔ Trimmed l core :=
  ⟨fun h => h ▸ trimmed_trim l, Trimmed.trim_eq⟩

theorem trim_eq_nil_iff {l : List Char} : trim l = [] ↔ ∀ c ∈ l, isBlank c = true := by
  constructor
  · intro h
    obtain ⟨before, after, split, hb, ha⟩ := (trim_eq_iff.mp h).around
    intro c hc
    simp only [split, List.append_nil, List.mem_append] at hc
    exact hc.elim (hb c) (ha c)
  · intro h
    simp [trim, List.dropWhile_eq_nil_iff.mpr h]

end Text

open Text

namespace WeightList

/-! ### Tokens -/

/-- A token and the weight that it denotes: a numeral, or a plus sign and a numeral, of a number
that fits into 32 bits. -/
inductive Denotes : List Char → UInt32 → Prop
  | plain {l : List Char} {n : Nat} (h : Numeral l n) (fits : n ≤ 0xFFFFFFFF) :
      Denotes l (UInt32.ofNat n)
  | plus {l : List Char} {n : Nat} (h : Numeral l n) (fits : n ≤ 0xFFFFFFFF) :
      Denotes ('+' :: l) (UInt32.ofNat n)

/-- A numeral has no plus sign to be dropped. -/
theorem dropPlus_of_numeral {l : List Char} {n : Nat} (h : Numeral l n) : dropPlus l = l := by
  have digits := ((isNumeral_iff l).mp (numeral_iff.mp h).1).2
  unfold dropPlus
  split
  · exact absurd (digits '+' (by simp)) (by decide)
  · rfl

theorem denotes_iff {l : List Char} {w : UInt32} :
    Denotes l w ↔ ∃ n ≤ 0xFFFFFFFF, Numeral (dropPlus l) n ∧ w = UInt32.ofNat n := by
  constructor
  · intro h
    cases h with
    | plain h fits => exact ⟨_, fits, (dropPlus_of_numeral h).symm ▸ h, rfl⟩
    | plus h fits => exact ⟨_, fits, h, rfl⟩
  · rintro ⟨n, fits, h, rfl⟩
    unfold dropPlus at h
    split at h
    · exact .plus h fits
    · exact .plain h fits

/-- A token is read as the weight that its inner part denotes, if it denotes one. -/
theorem weight?_eq_some_iff {t : List Char} {w : UInt32} :
    weight? t = some w ↔ Denotes (trim t) w := by
  simp only [weight?, Option.map_eq_some_iff, readNumeral?_eq_some_iff, denotes_iff, numeral_iff]
  grind

theorem weight?_eq_none_iff {t : List Char} :
    weight? t = none ↔ ∀ w, ¬ Denotes (trim t) w := by
  simp [Option.eq_none_iff_forall_ne_some, weight?_eq_some_iff]

theorem tokens_eq_splitOn (l : List Char) : tokens l = l.splitOn ',' := by
  induction l with
  | nil => rfl
  | cons c l ih =>
    rw [tokens, ih, List.splitOn_cons_eq_if_modifyHead]
    cases h : l.splitOn ',' with
    | nil => exact absurd h (List.splitOn_ne_nil _ _)
    | cons t ts => simp

theorem comma_notMem_of_mem_tokens {l t : List Char} (h : t ∈ tokens l) : ',' ∉ t := by
  induction l generalizing t with
  | nil => simp_all [tokens]
  | cons c l ih =>
    rw [tokens] at h
    split at h
    · rcases List.mem_cons.mp h with rfl | h
      · simp
      · exact ih h
    · next hc =>
      cases hl : tokens l with
      | nil => exact absurd hl (tokens_ne_nil l)
      | cons u us =>
        rw [hl] at h
        rcases List.mem_cons.mp h with rfl | h
        · simpa [Ne.symm hc] using ih (t := u) (by simp [hl])
        · exact ih (by simp [hl, h])

/-- The tokens are the one list of parts without commas that commas join to the text. -/
theorem tokens_eq_iff {l : List Char} {parts : List (List Char)} :
    tokens l = parts ↔
      parts ≠ [] ∧ (∀ t ∈ parts, ',' ∉ t) ∧ [','].intercalate parts = l := by
  constructor
  · rintro rfl
    refine ⟨tokens_ne_nil l, fun t ht => comma_notMem_of_mem_tokens ht, ?_⟩
    rw [tokens_eq_splitOn, List.intercalate_splitOn]
  · rintro ⟨hne, clean, rfl⟩
    rw [tokens_eq_splitOn, List.splitOn_intercalate ',' clean hne]

/-- A text and the tokens that it lists: none if it is blank, and otherwise the parts that its
commas join, each without the blanks around it. -/
inductive Lists : List Char → List (List Char) → Prop
  | blank {text : List Char} (h : ∀ c ∈ text, isBlank c = true) : Lists text []
  | parts {parts toks : List (List Char)} (hne : parts ≠ []) (clean : ∀ t ∈ parts, ',' ∉ t)
      (trimmed : List.Forall₂ Trimmed parts toks)
      (written : ∃ c ∈ [','].intercalate parts, isBlank c = false) :
      Lists ([','].intercalate parts) toks

/-- The tokens that a text lists are those that the reader finds, trimmed. -/
theorem lists_iff {text : List Char} {toks : List (List Char)} :
    Lists text toks ↔ toks = if trim text = [] then [] else (tokens text).map trim := by
  have cores : ∀ parts : List (List Char),
      List.Forall₂ Trimmed parts toks ↔ toks = parts.map trim := by
    intro parts
    calc List.Forall₂ Trimmed parts toks
        ↔ List.Forall₂ (fun t core => trim t = core) parts toks := by simp only [trim_eq_iff]
      _ ↔ List.Forall₂ (· = ·) (parts.map trim) toks := List.forall₂_map_left_iff.symm
      _ ↔ toks = parts.map trim := by rw [List.forall₂_eq_eq_eq, eq_comm]
  split
  · next hb =>
    have blank := trim_eq_nil_iff.mp hb
    constructor
    · intro h
      cases h with
      | blank _ => rfl
      | parts _ _ _ written =>
        obtain ⟨c, hc, hw⟩ := written
        simp [blank c hc] at hw
    · rintro rfl
      exact .blank blank
  · next hb =>
    have written : ∃ c ∈ text, isBlank c = false := by simpa [trim_eq_nil_iff] using hb
    constructor
    · intro h
      cases h with
      | blank blank => exact absurd (trim_eq_nil_iff.mpr blank) hb
      | @parts parts _ hne clean trimmed _ =>
        rw [tokens_eq_iff.mpr ⟨hne, clean, rfl⟩]
        exact (cores parts).mp trimmed
    · intro h
      obtain ⟨hne, clean, joined⟩ := tokens_eq_iff.mp (rfl : tokens text = tokens text)
      rw [← joined] at written
      rw [← joined]
      exact .parts hne clean ((cores _).mpr h) written

/-- Every text lists exactly one list of tokens. -/
theorem existsUnique_lists (text : List Char) : ∃! toks, Lists text toks := by
  simp only [lists_iff]
  exact existsUnique_eq

/-! ### Outcomes -/

/-- What a list of tokens stands for: the first token that denotes no weight, before anything else;
then a lock without slots, a list without weights and the first zero; else the weights. -/
inductive Outcome (c : UInt64) (toks : List (List Char)) : Except ConfigError Config → Prop
  | invalidWeight {good : List (List Char)} {bad : List Char} {rest : List (List Char)}
      (split : toks = good ++ bad :: rest) (valid : ∀ t ∈ good, ∃ w, Denotes t w)
      (invalid : ∀ w, ¬ Denotes bad w) :
      Outcome c toks (.error (.invalidWeight good.length (String.ofList bad)))
  | zeroConcurrency {ws : List UInt32} (weights : List.Forall₂ Denotes toks ws) (hc : c = 0) :
      Outcome c toks (.error .zeroConcurrency)
  | noPriorities (weights : List.Forall₂ Denotes toks []) (hc : c ≠ 0) :
      Outcome c toks (.error .noPriorities)
  | zeroWeight {positive rest : List UInt32}
      (weights : List.Forall₂ Denotes toks (positive ++ 0 :: rest)) (hc : c ≠ 0)
      (first : 0 ∉ positive) : Outcome c toks (.error (.zeroWeight positive.length))
  | ok {ws : List UInt32} (weights : List.Forall₂ Denotes toks ws) (hc : c ≠ 0)
      (hne : ws ≠ []) (positive : 0 ∉ ws) :
      Outcome c toks (.ok { concurrency := c, weights := ws })

/-- By induction on the tokens: all of them denote weights, or there is a first that does not. -/
theorem denotes_or_first_invalid (toks : List (List Char)) :
    (∃ ws, List.Forall₂ Denotes toks ws) ∨
      ∃ good bad rest, toks = good ++ bad :: rest ∧ (∀ t ∈ good, ∃ w, Denotes t w) ∧
        ∀ w, ¬ Denotes bad w := by
  induction toks with
  | nil => exact .inl ⟨[], .nil⟩
  | cons t toks ih =>
    by_cases ht : ∃ w, Denotes t w
    · obtain ⟨w, hw⟩ := ht
      rcases ih with ⟨ws, hws⟩ | ⟨good, bad, rest, rfl, valid, invalid⟩
      · exact .inl ⟨w :: ws, .cons hw hws⟩
      · exact .inr ⟨t :: good, bad, rest, rfl, by simpa using ⟨⟨w, hw⟩, valid⟩, invalid⟩
    · exact .inr ⟨[], t, toks, rfl, by simp, not_exists.mp ht⟩

/-- Every list of tokens has an outcome. -/
theorem exists_outcome (c : UInt64) (toks : List (List Char)) : ∃ r, Outcome c toks r := by
  rcases denotes_or_first_invalid toks with ⟨ws, hws⟩ | ⟨good, bad, rest, split, valid, invalid⟩
  · by_cases hc : c = 0
    · exact ⟨_, .zeroConcurrency hws hc⟩
    by_cases hne : ws = []
    · exact ⟨_, .noPriorities (hne ▸ hws) hc⟩
    by_cases zero : 0 ∈ ws
    · obtain ⟨positive, rest, rfl, first⟩ := List.eq_append_cons_of_mem zero
      exact ⟨_, .zeroWeight hws hc first⟩
    · exact ⟨_, .ok hws hc hne zero⟩
  · exact ⟨_, .invalidWeight split valid invalid⟩

/-- Tokens that all denote weights are read as these weights. -/
theorem readFrom_of_denotes {ts : List (List Char)} {ws : List UInt32}
    (h : List.Forall₂ Denotes (ts.map trim) ws) (position : Nat) :
    readFrom position ts = .ok ws := by
  induction ts generalizing ws position with
  | nil =>
    cases h
    rfl
  | cons t ts ih =>
    obtain ⟨w, ws', hw, hws, rfl⟩ := List.forall₂_cons_left_iff.mp h
    simp [readFrom, weight?_eq_some_iff.mpr hw, ih hws]

/-- The first token that denotes no weight is reported with its place, counted from where the
reader starts. By induction on the tokens before it. -/
theorem readFrom_of_first_invalid {ts : List (List Char)} {good : List (List Char)}
    {bad : List Char} {rest : List (List Char)} (split : ts.map trim = good ++ bad :: rest)
    (valid : ∀ t ∈ good, ∃ w, Denotes t w) (invalid : ∀ w, ¬ Denotes bad w) (position : Nat) :
    readFrom position ts =
      .error (.invalidWeight (position + good.length) (String.ofList bad)) := by
  induction good generalizing ts position with
  | nil =>
    obtain ⟨t, ts', rfl, rfl, -⟩ := List.map_eq_cons_iff.mp split
    simp [readFrom, weight?_eq_none_iff.mpr invalid]
  | cons g good ih =>
    obtain ⟨t, ts', rfl, rfl, split'⟩ := List.map_eq_cons_iff.mp split
    obtain ⟨w, hw⟩ := valid (trim t) (by simp)
    have tail := ih split' (fun u hu => valid u (by simp [hu])) (position + 1)
    simp [readFrom, weight?_eq_some_iff.mpr hw, tail, Nat.add_assoc, Nat.add_comm 1]

/-- A text is read token by token, and a blank one as no token at all. -/
theorem read_eq_readFrom {text : String} {toks : List (List Char)}
    (h : Lists text.toList toks) : ∃ ts, ts.map trim = toks ∧ read text = readFrom 0 ts := by
  rw [lists_iff] at h
  unfold read
  split at h
  · next hb => exact ⟨[], by simp [h], by simp [hb]⟩
  · next hb => exact ⟨tokens text.toList, h.symm, by simp [hb]⟩

/-! ### Written lists -/

/-- A part of a text that is the numeral of a weight with blanks around it. -/
def PadsNumeral (part : String) (w : UInt32) : Prop :=
  ∃ before after : String, part = before ++ toString w.toNat ++ after ∧
    (∀ c ∈ before.toList, isBlank c = true) ∧ ∀ c ∈ after.toList, isBlank c = true

/-- The numeral of a weight denotes it. -/
theorem denotes_toDigits (w : UInt32) : Denotes (Nat.toDigits 10 w.toNat) w := by
  simpa using Denotes.plain (numeral_toDigits w.toNat) (Nat.le_of_lt_succ w.toNat_lt)

section Padded

variable {part : String} {w : UInt32}

theorem PadsNumeral.trimmed (h : PadsNumeral part w) :
    Trimmed part.toList (Nat.toDigits 10 w.toNat) := by
  obtain ⟨before, after, rfl, hb, ha⟩ := h
  refine ⟨⟨before.toList, after.toList, by simp, hb, ha⟩, fun c hc => ?_, fun c hc => ?_⟩
  · exact isBlank_of_mem_toDigits (List.mem_of_mem_head? hc)
  · exact isBlank_of_mem_toDigits (List.mem_of_mem_getLast? hc)

theorem PadsNumeral.comma_notMem (h : PadsNumeral part w) : ',' ∉ part.toList := by
  obtain ⟨before, after, rfl, hb, ha⟩ := h
  have blank : isBlank ',' = false := by decide
  intro mem
  simp only [String.toList_append, List.mem_append, Nat.toString_eq_repr, Nat.toList_repr] at mem
  rcases mem with (mem | mem) | mem
  · simp [hb _ mem] at blank
  · exact notMem_toDigits (by decide) _ mem
  · simp [ha _ mem] at blank

theorem PadsNumeral.exists_digit (h : PadsNumeral part w) :
    ∃ c ∈ part.toList, isBlank c = false := by
  obtain ⟨before, after, rfl, -, -⟩ := h
  obtain ⟨c, hc⟩ := List.exists_mem_of_ne_nil _ (Nat.toDigits_ne_nil (n := w.toNat) (b := 10))
  exact ⟨c, by simp [hc], isBlank_of_mem_toDigits hc⟩

end Padded

/-- Padded numerals, joined by commas, list the numerals. -/
theorem lists_of_padded {parts : List String} {ws : List UInt32}
    (h : List.Forall₂ PadsNumeral parts ws) (hne : ws ≠ []) :
    Lists (",".intercalate parts).toList (ws.map fun w => Nat.toDigits 10 w.toNat) := by
  have each : ∀ p ∈ parts, ∃ w, PadsNumeral p w := by
    intro p hp
    obtain ⟨i, hi, rfl⟩ := List.getElem_of_mem hp
    exact ⟨_, h.get hi (h.length_eq ▸ hi)⟩
  have some : parts ≠ [] := by
    rintro rfl
    exact hne (List.forall₂_nil_left_iff.mp h)
  rw [String.toList_intercalate]
  refine @Lists.parts (parts.map String.toList) _ (by simpa using some) ?_ ?_ ?_
  · simp only [List.forall_mem_map]
    intro p hp
    obtain ⟨w, hw⟩ := each p hp
    exact hw.comma_notMem
  · rw [List.forall₂_map_left_iff, List.forall₂_map_right_iff]
    exact h.imp fun _ _ => PadsNumeral.trimmed
  · obtain ⟨p, ps, rfl⟩ := List.exists_cons_of_ne_nil some
    obtain ⟨w, hw⟩ := each p (by simp)
    obtain ⟨c, hc, hb⟩ := hw.exists_digit
    refine ⟨c, ?_, hb⟩
    cases ps <;> simp [hc]

/-- The text of a list of weights: their numerals with commas between them. -/
def text (ws : List UInt32) : String :=
  ",".intercalate (ws.map fun w => toString w.toNat)

end WeightList

namespace Config

open WeightList

/-- The reader gives the outcome of the tokens that the text lists. -/
theorem ofWeightList_eq_of_outcome {c : UInt64} {text : String} {toks : List (List Char)}
    {r : Except ConfigError Config} (lists : Lists text.toList toks) (h : Outcome c toks r) :
    ofWeightList c text = r := by
  obtain ⟨ts, rfl, hread⟩ := read_eq_readFrom lists
  have checked : ∀ ws, List.Forall₂ Denotes (ts.map trim) ws →
      ofWeightList c text = check { concurrency := c, weights := ws } := by
    intro ws hws
    simp only [ofWeightList, hread, readFrom_of_denotes hws]
  cases h with
  | invalidWeight split valid invalid =>
    simp [ofWeightList, hread, readFrom_of_first_invalid split valid invalid]
  | zeroConcurrency weights hc =>
    rw [checked _ weights]
    simp [check, fault?, hc]
  | noPriorities weights hc =>
    rw [checked [] weights]
    simp [check, fault?, hc]
  | @zeroWeight positive rest weights hc first =>
    have none : positive.findIdx? (· = 0) = none :=
      List.findIdx?_eq_none_iff.mpr fun w hw => by
        simpa using ne_of_mem_of_not_mem hw first
    rw [checked _ weights]
    simp [check, fault?, hc, List.findIdx?_append, List.findIdx?_cons, none]
  | @ok ws weights hc hne positive =>
    have none : fault? { concurrency := c, weights := ws } = none :=
      (fault?_eq_none_iff _).mpr ⟨hc, hne, fun w hw h0 => positive (h0 ▸ hw)⟩
    rw [checked _ weights, check, none]

/-- The outcome of the tokens is what the reader gives, and nothing else is an outcome of them. -/
theorem ofWeightList_eq_iff {c : UInt64} {text : String} {toks : List (List Char)}
    (lists : Lists text.toList toks) (r : Except ConfigError Config) :
    ofWeightList c text = r ↔ Outcome c toks r := by
  constructor
  · rintro rfl
    obtain ⟨r, outcome⟩ := exists_outcome c toks
    exact (ofWeightList_eq_of_outcome lists outcome).symm ▸ outcome
  · exact ofWeightList_eq_of_outcome lists

example : ofWeightList 0 "+01,,3" = .error (.invalidWeight 1 "") := by decide

example : ofWeightList 2 "+01,0007" = .ok { concurrency := 2, weights := [1, 7] } := by decide

/-- The padded numerals of positive weights are read as these weights. -/
theorem ofWeightList_padded {c : UInt64} {ws : List UInt32} {parts : List String} (hc : c ≠ 0)
    (hne : ws ≠ []) (positive : 0 ∉ ws) (h : List.Forall₂ PadsNumeral parts ws) :
    ofWeightList c (",".intercalate parts) = .ok { concurrency := c, weights := ws } := by
  apply ofWeightList_eq_of_outcome (lists_of_padded h hne)
  apply Outcome.ok _ hc hne positive
  rw [List.forall₂_map_left_iff]
  exact List.forall₂_same.mpr fun w _ => denotes_toDigits w

/-- A text that was accepted has positive weights, which their numerals give back. -/
theorem ofWeightList_text {c : UInt64} {text : String} {config : Config}
    (h : ofWeightList c text = .ok config) :
    ofWeightList c (WeightList.text config.weights) = .ok config := by
  obtain ⟨toks, lists, -⟩ := existsUnique_lists text.toList
  cases (ofWeightList_eq_iff lists _).mp h with
  | ok weights hc hne positive =>
    apply ofWeightList_padded hc hne positive
    rw [List.forall₂_map_left_iff]
    exact List.forall₂_same.mpr fun w _ => ⟨"", "", by simp, by simp, by simp⟩

/-- The reader of weight lists follows the grammar on every text, the first fault included. So
positive weights are read back from their numerals with any blanks around them, and rendering what
was read loses nothing. -/
theorem weight_lists_read (c : UInt64) :
    (∀ text : String, (∃! toks, Lists text.toList toks) ∧
      ∀ toks, Lists text.toList toks → ∀ r, ofWeightList c text = r ↔ Outcome c toks r) ∧
    (∀ (ws : List UInt32) (parts : List String), c ≠ 0 → ws ≠ [] → 0 ∉ ws →
      List.Forall₂ PadsNumeral parts ws →
      ofWeightList c (",".intercalate parts) = .ok { concurrency := c, weights := ws }) ∧
    ∀ (text : String) (config : Config), ofWeightList c text = .ok config →
      ofWeightList c (WeightList.text config.weights) = .ok config := by
  refine ⟨fun text => ⟨existsUnique_lists text.toList, fun toks lists r => ?_⟩,
    fun ws parts hc hne positive h => ofWeightList_padded hc hne positive h,
    fun text config h => ofWeightList_text h⟩
  exact ofWeightList_eq_iff lists r

/-- The list of three weights with blanks around two of them, and without. -/
theorem weight_lists_read_of_padded_list :
    ofWeightList 3 " 1,2 , 10 " = .ok { concurrency := 3, weights := [1, 2, 10] } ∧
      ofWeightList 3 "1,2,10" = .ok { concurrency := 3, weights := [1, 2, 10] } := by
  have blank : ∀ c ∈ " ".toList, isBlank c = true := by simp [isBlank, blankRanges]
  have none : ∀ c ∈ "".toList, isBlank c = true := by simp
  have parts : List.Forall₂ PadsNumeral [" 1", "2 ", " 10 "] [1, 2, 10] :=
    .cons ⟨" ", "", by decide, blank, none⟩
      (.cons ⟨"", " ", by decide, none, blank⟩ (.cons ⟨" ", " ", by decide, blank, blank⟩ .nil))
  have padded : ofWeightList 3 " 1,2 , 10 " = .ok { concurrency := 3, weights := [1, 2, 10] } :=
    (weight_lists_read 3).2.1 _ _ (by decide) (by simp) (by decide) parts
  exact ⟨padded, (weight_lists_read 3).2.2 _ _ padded⟩

end Config

end FairShare
