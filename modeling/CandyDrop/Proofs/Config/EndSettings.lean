import CandyDrop.Config.Units
import CandyDrop.Proofs.Text.Integer

/-!
# Ends of sales as numbers and as texts

The end of sales can be written as a number or as a text. The decimal text of an integer is no
standard date (`Calendar.Mail.moment?_eq_none`, `Calendar.Internet.moment?_eq_none`), so that it is
taken for a number of seconds (`Calendar.timestamp?_integer`). Hence it does not matter in which way
an integer is written, whether it ends the sales at a date or after an amount
(`Config.EndSettings.toMachine_alike`).
-/

namespace CandyDrop

namespace Calendar

open Text (isNumeric isBlank_of_isNumeric toLower_of_isNumeric)

variable {cs ds : List Char}

namespace Scan

variable {α β : Type}

theorem bind_eq_none {x : Scan α} {f : α → Scan β} (h : ∀ r, x cs = some r → f r.1 r.2 = none) :
    (x >>= f) cs = none := by
  show (x cs).bind (fun r => f r.1 r.2) = none
  cases hx : x cs with
  | none => rfl
  | some r => exact h r hx

/-- Digits are taken off the front, and at least one if so many are asked for. -/
theorem number_suffix {least most : Nat} {r : Nat × List Char} (hleast : 0 < least)
    (h : number least most cs = some r) : r.2 <:+ cs.tail := by
  obtain ⟨⟨ds, rest⟩, hdigits, hr⟩ := Option.bind_eq_some_iff.1 h
  cases hr
  simp only [digits] at hdigits
  split at hdigits
  · cases hdigits
  · next hlength =>
    cases hdigits
    obtain ⟨k, hk⟩ : ∃ k, ((cs.take most).takeWhile Char.isDigit).length = k + 1 :=
      ⟨_, (Nat.succ_pred_eq_of_pos (by omega)).symm⟩
    dsimp only
    rw [hk, ← List.drop_tail]
    exact List.drop_suffix k cs.tail

theorem blanks_suffix {r : Unit × List Char} (h : blanks cs = some r) : r.2 <:+ cs := by
  cases h
  exact List.dropWhile_suffix _

theorem gap_eq_none (h : ∀ c ∈ cs, isNumeric c = true) : gap cs = none := by
  cases cs with
  | nil => rfl
  | cons c cs => simp [gap, isBlank_of_isNumeric (h c (List.mem_cons_self ..))]

theorem char_eq_none {c : Char} (h : c ∉ cs) : char c cs = none := by
  cases cs with
  | nil => rfl
  | cons d cs =>
    rw [List.mem_cons, not_or] at h
    exact if_neg (Ne.symm h.1)

/-- The text of an integer does not start with a name. -/
theorem name_eq_none {names : List (List Char)} {c : Char} (hc : isNumeric c = true)
    (hnames : ∀ n ∈ names, ∃ d ds, n = d :: ds ∧ isNumeric d = false) (cs : List Char) :
    name names (c :: cs) = none := by
  have hnone : names.findIdx? (fun n => n.isPrefixOf ((c :: cs).map Char.toLower)) = none := by
    refine List.findIdx?_eq_none_iff.2 fun n hn => ?_
    obtain ⟨d, ds, rfl, hd⟩ := hnames n hn
    have hne : (d == c) = false := by
      rw [beq_eq_false_iff_ne]
      rintro rfl
      rw [hc] at hd
      cases hd
    rw [List.map_cons, toLower_of_isNumeric hc, List.isPrefixOf_cons_cons, hne, Bool.false_and]
  rw [name, hnone]

theorem weekdays_start : ∀ n ∈ weekdays, ∃ d ds, n = d :: ds ∧ isNumeric d = false := by
  intro n hn
  simp only [weekdays, List.mem_cons, List.not_mem_nil, or_false] at hn
  obtain rfl | rfl | rfl | rfl | rfl | rfl | rfl := hn <;> exact ⟨_, _, rfl, rfl⟩

end Scan

/-- A date in mail headers that starts like an integer goes on with white space. -/
theorem Mail.moment?_eq_none (h : ∀ c ∈ cs, isNumeric c = true) : Mail.moment? cs = none := by
  have hweekday : Mail.weekday cs = some (none, cs) := by
    cases cs with
    | nil => rfl
    | cons c cs =>
      have hc := h c (List.mem_cons_self ..)
      have hblanks : Scan.blanks (c :: cs) = some ((), c :: cs) := by
        have hdrop : (c :: cs).dropWhile Text.isBlank = c :: cs :=
          List.dropWhile_cons_of_neg (by simp [isBlank_of_isNumeric hc])
        show some ((), (c :: cs).dropWhile Text.isBlank) = _
        rw [hdrop]
      have hname := Scan.name_eq_none hc Scan.weekdays_start cs
      simp only [weekday, bind, StateT.bind, hblanks, Option.bind, hname]
      rfl
  have hdate : Mail.date cs = none := by
    refine Scan.bind_eq_none fun w hw => Scan.bind_eq_none fun b hblanks =>
      Scan.bind_eq_none fun day hday => Scan.bind_eq_none fun g hgap => ?_
    rw [hweekday] at hw
    cases hw
    have hafter : ∀ c ∈ day.2, isNumeric c = true := by
      intro c hc
      have hrest : c ∈ b.2 := List.mem_of_mem_tail ((Scan.number_suffix (by decide) hday).mem hc)
      exact h c ((Scan.blanks_suffix hblanks).mem hrest)
    rw [Scan.gap_eq_none hafter] at hgap
    cases hgap
  rw [Mail.moment?, hdate]

/-- An internet date goes on with a minus sign after its year. -/
theorem Internet.moment?_eq_none (h : '-' ∉ cs.tail) : Internet.moment? cs = none := by
  have hdate : Internet.date cs = none := by
    refine Scan.bind_eq_none fun year hyear => Scan.bind_eq_none fun m hminus => ?_
    have hrest : '-' ∉ year.2 := fun hc => h ((Scan.number_suffix (by decide) hyear).mem hc)
    rw [Scan.char_eq_none hrest] at hminus
    cases hminus
  rw [Internet.moment?, Scan.run?, hdate]

/-- The text of an integer is a number of seconds, and neither `now` nor a standard date. -/
theorem timestamp?_integer {n now : Int} {s : String} (hs : Text.trim s = Text.ofInt n)
    (hlow : -0x8000000000000000 ≤ n) (hhigh : n < 0x8000000000000000) :
    timestamp? now s = some n := by
  have hnumeric : ∀ c ∈ (Text.ofInt n).toList, isNumeric c = true := fun _ =>
    Text.isNumeric_of_mem_ofInt
  have hnow : isNow (Text.ofInt n).toList = false := by
    have hlower : (Text.ofInt n).toList.map Char.toLower = (Text.ofInt n).toList :=
      (List.map_congr_left fun c hc => toLower_of_isNumeric (hnumeric c hc)).trans (List.map_id _)
    rw [isNow, hlower, beq_eq_false_iff_ne]
    intro heq
    have hn := hnumeric 'n' (by rw [heq]; exact List.mem_cons_self ..)
    cases hn
  rw [timestamp?, hs, ofTrimmed?, hnow, if_neg Bool.false_ne_true, Mail.moment?_eq_none hnumeric,
    Internet.moment?_eq_none (Text.minus_not_mem_tail_ofInt n), Text.int64?_ofInt hlow hhigh]
  have hback : (Int64.ofInt n).toInt = n := Int64.toInt_ofInt_of_le hlow hhigh
  rw [Option.none_or, Option.none_or, Option.map_some, Option.some_or, hback]

end Calendar

namespace Config.EndSettings

/-- A value that stands for an integer: the number itself, or its decimal text with any white space
around it. -/
inductive Spells : Json → Int → Prop
  | number (n : Int) : Spells (.number (.integer n)) n
  | text (n : Int) (before after : List Char) (hbefore : ∀ c ∈ before, Text.isBlank c = true)
      (hafter : ∀ c ∈ after, Text.isBlank c = true) :
    Spells (.text (String.ofList (before ++ (Text.ofInt n).toList ++ after))) n

variable {e : EndSettings} {n : Int}

theorem seconds_of_spells {v : Json} (h : Spells v n) (now : Int)
    (hlow : -0x8000000000000000 ≤ n) (hhigh : n < 0x8000000000000000) :
    seconds now v = .ok n := by
  cases h with
  | number n => exact if_pos hhigh
  | text n before after hbefore hafter =>
    have htrim := Text.trim_ofInt hbefore hafter n
    have hdate := @Calendar.timestamp?_integer n now _ htrim hlow hhigh
    rw [seconds, parseDate, hdate]

theorem amount?_of_spells {v : Json} (h : Spells v n) (hhigh : n < UInt64.size) :
    amount? v = if 0 ≤ n then some (UInt64.ofNat n.toNat) else none := by
  cases h with
  | number n =>
    have hrange : (0 ≤ n ∧ n < UInt64.size) ↔ 0 ≤ n := and_iff_left hhigh
    simp only [amount?, hrange]
  | text n before after hbefore hafter =>
    rw [amount?, Text.trim_ofInt hbefore hafter n, Text.uint64?_ofInt hhigh]

theorem toMachine_date {now : Int} (h : Spells e.value n) (hdate : e.kind.date = true)
    (hlow : -0x8000000000000000 ≤ n) (hhigh : n < 0x8000000000000000) :
    e.toMachine now = if 0 ≤ n then .ok (.date (UInt64.ofNat n.toNat))
      else .error (.invalidDate (Text.ofInt n)) := by
  rw [toMachine, if_pos hdate, seconds_of_spells h now hlow hhigh]
  rfl

theorem toMachine_amount {now : Int} (h : Spells e.value n) (hdate : e.kind.date = false)
    (hamount : e.kind.amount = true) (hhigh : n < UInt64.size) :
    e.toMachine now = if 0 ≤ n then .ok (.amount (UInt64.ofNat n.toNat))
      else .error (.invalidAmount e.value) := by
  have hno : ¬e.kind.date = true := by simp [hdate]
  rw [toMachine, if_neg hno, if_pos hamount, amount?_of_spells h hhigh]
  by_cases hpos : 0 ≤ n
  · rw [if_pos hpos, if_pos hpos]
  · rw [if_neg hpos, if_neg hpos]

theorem toNat_ofNat_toNat (hlow : 0 ≤ n) (hhigh : n < UInt64.size) :
    ((UInt64.ofNat n.toNat).toNat : Int) = n := by
  have hlt : n.toNat < UInt64.size := by omega
  rw [UInt64.toNat_ofNat_of_lt' hlt]
  omega

/-- **A number and its text are read alike.** Let two settings of the same kind have an integer as
their value, each of them as a number or as its text with any white space around it. If they are
dates, both give this number of seconds, or are refused for it if it is negative; if they are
amounts, both give this number of items, or are refused if it is negative. The text is never taken
for one of the standard dates that are tried before it is taken for a number. -/
theorem toMachine_alike {e e' : EndSettings} {n : Int} (h : Spells e.value n)
    (h' : Spells e'.value n) (hkind : e'.kind = e.kind) (now now' : Int) :
    (e.kind.date = true → -0x8000000000000000 ≤ n → n < 0x8000000000000000 →
      e.toMachine now = e'.toMachine now' ∧
      (0 ≤ n → ∃ m : UInt64, (m.toNat : Int) = n ∧ e.toMachine now = .ok (.date m)) ∧
      (n < 0 → e.toMachine now = .error (.invalidDate (Text.ofInt n)))) ∧
    (e.kind.date = false → e.kind.amount = true →
      -0x8000000000000000 ≤ n → n < 0x10000000000000000 →
      (0 ≤ n → ∃ m : UInt64, (m.toNat : Int) = n ∧
        e.toMachine now = .ok (.amount m) ∧ e'.toMachine now' = .ok (.amount m)) ∧
      (n < 0 → e.toMachine now = .error (.invalidAmount e.value) ∧
        e'.toMachine now' = .error (.invalidAmount e'.value))) ∧
    Calendar.Mail.moment? (Text.ofInt n).toList = none ∧
    Calendar.Internet.moment? (Text.ofInt n).toList = none := by
  refine ⟨fun hdate hlow hhigh => ?_, fun hdate hamount _ hhigh => ?_,
    Calendar.Mail.moment?_eq_none fun _ => Text.isNumeric_of_mem_ofInt,
    Calendar.Internet.moment?_eq_none (Text.minus_not_mem_tail_ofInt n)⟩
  · rw [toMachine_date h hdate hlow hhigh, toMachine_date h' (hkind ▸ hdate) hlow hhigh]
    refine ⟨rfl, fun hpos => ⟨_, toNat_ofNat_toNat hpos ?_, if_pos hpos⟩, fun hneg => if_neg ?_⟩
    · exact Int.lt_trans hhigh (by decide)
    · exact Int.not_le.2 hneg
  · rw [toMachine_amount h hdate hamount hhigh,
      toMachine_amount h' (hkind ▸ hdate) (hkind ▸ hamount) hhigh]
    refine ⟨fun hpos => ⟨_, toNat_ofNat_toNat hpos hhigh, if_pos hpos, if_pos hpos⟩, fun hneg => ?_⟩
    exact ⟨if_neg (Int.not_le.2 hneg), if_neg (Int.not_le.2 hneg)⟩

/-- An end of sales at a date, or after an amount. -/
def sample (date : Bool) (v : Json) (h : v.isKept = true) : EndSettings := ⟨⟨date, !date⟩, v, h⟩

/-- A minute before the epoch is refused, as a number and between white space; the greatest amount is
read from both. -/
theorem toMachine_alike_spaced :
    ((sample true (.number (.integer (-60))) rfl).toMachine 0 = .error (.invalidDate "-60") ∧
      (sample true (.text "\t-60 ") rfl).toMachine 1 = .error (.invalidDate "-60")) ∧
    ∃ m : UInt64, (m.toNat : Int) = 18446744073709551615 ∧
      (sample false (.number (.integer 18446744073709551615)) rfl).toMachine 0 = .ok (.amount m) ∧
      (sample false (.text " 18446744073709551615") rfl).toMachine 1 = .ok (.amount m) := by
  have hminute : Spells (sample true (.text "\t-60 ") rfl).value (-60) := by
    have htext : String.ofList (['\t'] ++ (Text.ofInt (-60)).toList ++ [' ']) = "\t-60 " := by decide
    exact htext ▸ .text (-60) ['\t'] [' '] (List.forall_mem_singleton.2 rfl)
      (List.forall_mem_singleton.2 rfl)
  have hgreatest : Spells (sample false (.text " 18446744073709551615") rfl).value
      18446744073709551615 :=
    .text 18446744073709551615 [' '] [] (List.forall_mem_singleton.2 rfl) (List.forall_mem_nil _)
  have hnumber : ∀ (date : Bool) (n : Int) (h : Json.isKept (.number (.integer n)) = true),
      Spells (sample date (.number (.integer n)) h).value n := fun _ n _ => .number n
  obtain ⟨hsame, -, hrefused⟩ :=
    (toMachine_alike (hnumber true (-60) rfl) hminute rfl 0 1).1 rfl (by decide) (by decide)
  refine ⟨⟨hrefused (by decide), hsame.symm.trans (hrefused (by decide))⟩, ?_⟩
  obtain ⟨hread, -⟩ := (toMachine_alike (hnumber false 18446744073709551615 rfl) hgreatest rfl
    0 1).2.1 rfl rfl (by decide) (by decide)
  exact hread (by decide)

end Config.EndSettings

end CandyDrop
