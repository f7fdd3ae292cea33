import Bindery.Access.HostType
import Bindery.Proofs.Text.Numeral
import Mathlib.Algebra.Group.Nat.Defs

/-!
# Dates and times that come back

The text of a date, a time of day or a timestamp reads back as the value it was written
from. A field of fixed width ends where its width does, so that anything may be behind it.
A year outside 0 to 9999 has a sign and as many digits as it needs, and ends at the hyphen.
The text of a time shows no parts of a second, so times count on whole seconds only.

* `readNumber?_append`: where a number ends.
* `Date.readFrom?_chars`, `TimeOfDay.readFrom?_chars`: reading undoes writing, whatever is
  behind the text.
* `Moment`: a value that its text shows as a whole.
* `Moment.survives`: moments come back, and no two of them share a text.
-/

namespace Bindery

/-! ## Padded numerals -/

namespace Text

theorem isDigit_of_mem_decimalPadded {width n : Nat} {c : Char} (h : c ∈ decimalPadded width n) :
    isDigit c = true := by
  rcases List.mem_append.1 h with zero | digit
  · rw [List.eq_of_mem_replicate zero]
    rfl
  · exact isDigit_of_mem_decimal digit

theorem readDigits?_zeros (count : Nat) : readDigits? 0 (List.replicate count '0') = some 0 := by
  induction count with
  | zero => rfl
  | succ count ih =>
    rw [List.replicate_succ]
    exact ih

theorem decimalPadded_eq_cons (width n : Nat) :
    ∃ c cs, decimalPadded width n = c :: cs ∧ isDigit c = true := by
  cases written : decimalPadded width n with
  | nil => exact absurd (List.append_eq_nil_iff.1 written).2 (decimal_ne_nil n)
  | cons c cs => exact ⟨c, cs, rfl, isDigit_of_mem_decimalPadded (by rw [written]; simp)⟩

/-- Leading zeros do not change the number. -/
theorem readDecimal?_decimalPadded (width n : Nat) :
    readDecimal? (decimalPadded width n) = some n := by
  have digits : readDigits? 0 (decimalPadded width n) = some n := by
    rw [decimalPadded, readDigits?_append, readDigits?_zeros, Option.bind_some, readDigits?_decimal]
  obtain ⟨c, cs, written, -⟩ := decimalPadded_eq_cons width n
  rw [written] at digits ⊢
  exact digits

theorem length_decimal_le {width n : Nat} (positive : 0 < width) (small : n < 10 ^ width) :
    (decimal n).length ≤ width := by
  fun_induction decimal n generalizing width with
  | case1 n one => exact positive
  | case2 n more ih =>
    obtain ⟨width, rfl⟩ : ∃ w, width = w + 1 := ⟨width - 1, by omega⟩
    rw [Nat.pow_succ] at small
    have shorter : n / 10 < 10 ^ width := by omega
    have positive : 0 < width := by
      apply Nat.pos_of_ne_zero
      rintro rfl
      omega
    rw [List.length_append, List.length_singleton]
    exact Nat.succ_le_succ (ih positive shorter)

/-- A numeral that is not too long is padded to the width. -/
theorem length_decimalPadded {width n : Nat} (positive : 0 < width) (small : n < 10 ^ width) :
    (decimalPadded width n).length = width := by
  have bound := length_decimal_le positive small
  rw [decimalPadded, List.length_append, List.length_replicate]
  omega

theorem isBlank_of_isDigit {c : Char} (h : isDigit c = true) : isBlank c = false := by
  have apart : ∀ s ∈ blankSpans, s.last < 48 ∨ 57 < s.first := by decide
  rw [isDigit_iff] at h
  rw [isBlank, List.any_eq_false]
  intro s member within
  simp only [Span.contains, Bool.and_eq_true, decide_eq_true_eq] at within
  have := apart s member
  omega

theorem skipBlanks_of_isDigit {c : Char} (h : isDigit c = true) (cs : List Char) :
    skipBlanks (c :: cs) = c :: cs := by
  rw [skipBlanks, List.dropWhile_cons_of_neg]
  rw [isBlank_of_isDigit h]
  decide

end Text

open Text

/-! ## Numbers behind each other -/

/-- A number ends where its width ends or no digit is ahead. -/
theorem readNumber?_append {width n : Nat} {digits rest : List Char}
    (allDigits : ∀ c ∈ digits, isDigit c = true) (reads : readDecimal? digits = some n)
    (fits : digits.length ≤ width)
    (ends : digits.length = width ∨ ∀ c ∈ rest.head?, isDigit c = false) :
    readNumber? width (digits ++ rest) = some (n, rest) := by
  have behind : (rest.take (width - digits.length)).takeWhile isDigit = [] := by
    rcases ends with full | ahead
    · rw [full, Nat.sub_self]
      rfl
    · cases rest with
      | nil => simp
      | cons c rest =>
        have stops : isDigit c = false := ahead c rfl
        cases width - digits.length with
        | zero => rfl
        | succ k => simp [stops]
  have taken : ((digits ++ rest).take width).takeWhile isDigit = digits := by
    rw [List.take_append, List.take_of_length_le fits, List.takeWhile_append_of_pos allDigits,
      behind, List.append_nil]
  simp only [readNumber?, taken, reads, Option.map_some, List.drop_left]

/-- A field that is padded to its width reads back, whatever is behind it. -/
theorem readField?_decimalPadded (width : Nat) {n : Nat} (positive : 0 < width)
    (small : n < 10 ^ width) (rest : List Char) :
    readField? width (decimalPadded width n ++ rest) = some (n, rest) := by
  obtain ⟨c, cs, written, digit⟩ := decimalPadded_eq_cons width n
  have full := length_decimalPadded positive small
  have unskipped : skipBlanks (decimalPadded width n ++ rest) = decimalPadded width n ++ rest := by
    rw [written, List.cons_append, skipBlanks_of_isDigit digit]
  rw [readField?, unskipped]
  exact readNumber?_append (fun _ => isDigit_of_mem_decimalPadded)
    (readDecimal?_decimalPadded width n) (Nat.le_of_eq full) (.inl full)

/-! ## Dates -/

theorem readYear?_minus (cs : List Char) :
    readYear? ('-' :: cs) =
      (readNumber? cs.length cs).map fun (n, behind) => (-(n : Int), behind) := rfl

theorem readYear?_plus (cs : List Char) :
    readYear? ('+' :: cs) =
      (readNumber? cs.length cs).map fun (n, behind) => ((n : Int), behind) := rfl

/-- A year without a sign has four digits at most. -/
theorem readYear?_of_isDigit {c : Char} (h : isDigit c = true) (cs : List Char) :
    readYear? (c :: cs) =
      (readNumber? 4 (c :: cs)).map fun (n, behind) => ((n : Int), behind) := by
  rw [readYear?, skipBlanks_of_isDigit h]
  split
  · next same =>
    obtain ⟨rfl, -⟩ := List.cons.inj same
    exact absurd h (by decide)
  · next same =>
    obtain ⟨rfl, -⟩ := List.cons.inj same
    exact absurd h (by decide)
  · rfl

/-- A year reads back if it is told from what is behind it. -/
theorem readYear?_yearText (year : Int) (rest : List Char)
    (ahead : ∀ c ∈ rest.head?, isDigit c = false) :
    readYear? (yearText year ++ rest) = some (year, rest) := by
  have digits : ∀ c ∈ decimalPadded 4 year.natAbs, isDigit c = true :=
    fun _ => isDigit_of_mem_decimalPadded
  have reads := readDecimal?_decimalPadded 4 year.natAbs
  -- behind a sign all digits count, however many they are
  have greedy : readNumber? (decimalPadded 4 year.natAbs ++ rest).length
      (decimalPadded 4 year.natAbs ++ rest) = some (year.natAbs, rest) :=
    readNumber?_append digits reads (by simp) (.inr ahead)
  by_cases plain : 0 ≤ year ∧ year ≤ 9999
  · have full : (decimalPadded 4 year.natAbs).length = 4 :=
      length_decimalPadded (by decide) (by omega)
    have fixed : readNumber? 4 (decimalPadded 4 year.natAbs ++ rest) = some (year.natAbs, rest) :=
      readNumber?_append digits reads (Nat.le_of_eq full) (.inl full)
    obtain ⟨c, cs, written, digit⟩ := decimalPadded_eq_cons 4 year.natAbs
    rw [yearText, if_pos plain, written, List.cons_append, readYear?_of_isDigit digit,
      ← List.cons_append, ← written, fixed]
    show some ((year.natAbs : Int), rest) = some (year, rest)
    rw [Int.natAbs_of_nonneg plain.1]
  · rw [yearText, if_neg plain]
    by_cases negative : year < 0
    · rw [if_pos negative, List.cons_append, readYear?_minus, greedy]
      show some (-(year.natAbs : Int), rest) = some (year, rest)
      rw [show -(year.natAbs : Int) = year by omega]
    · rw [if_neg negative, List.cons_append, readYear?_plus, greedy]
      show some ((year.natAbs : Int), rest) = some (year, rest)
      rw [Int.natAbs_of_nonneg (by omega)]

theorem daysInMonth_le (year : Int) (month : Nat) : daysInMonth year month ≤ 31 := by
  unfold daysInMonth
  split
  case h_12 => split <;> decide
  all_goals decide

theorem month_le_of_isDay {year : Int} {month day : Nat} (h : IsDay year month day) :
    month ≤ 12 := by
  obtain ⟨-, -, first, last⟩ := h
  unfold daysInMonth at last
  split at last <;> omega

theorem Date.of?_fields (d : Date) : Date.of? d.year d.month d.day = some d := dif_pos d.isDay

/-- A date reads back, whatever is behind it. -/
theorem Date.readFrom?_chars (d : Date) (rest : List Char) :
    Date.readFrom? (d.chars ++ rest) = some (d, rest) := by
  have month := month_le_of_isDay d.isDay
  have day := Nat.le_trans d.isDay.2.2.2 (daysInMonth_le d.year d.month)
  have hyphen : isDigit '-' = false := rfl
  have year := fun rest => readYear?_yearText d.year ('-' :: rest) (by simpa using hyphen)
  have monthField := readField?_decimalPadded 2 (n := d.month) (by decide) (by omega)
  have dayField := readField?_decimalPadded 2 (n := d.day) (by decide) (by omega)
  simp only [Date.readFrom?, Date.chars, List.append_assoc, List.cons_append, year, monthField,
    dayField, behindChar?, Option.bind_eq_bind, Option.bind_some, ↓reduceIte, Date.of?_fields]
  rfl

example : (Date.mk (-262143) 2 28 (by decide)).text = "-262143-02-28" := by cbv

/-! ## Times of day -/

/-- A time of day on a whole second, which may be a leap second. -/
def TimeOfDay.Whole (t : TimeOfDay) : Prop := t.nanos % 1000000000 = 0

instance (t : TimeOfDay) : Decidable t.Whole :=
  inferInstanceAs (Decidable (t.nanos % 1000000000 = 0))

/-- The second that is shown tells a leap second from all others. -/
theorem TimeOfDay.of?_shownSecond {t : TimeOfDay} (whole : t.Whole) :
    (t.shownSecond = 60 ∧ TimeOfDay.of? t.hour t.minute 59 1000000000 = some t) ∨
      (t.shownSecond ≠ 60 ∧ TimeOfDay.of? t.hour t.minute t.shownSecond 0 = some t) := by
  obtain ⟨hour, minute, second, nanos, isTime⟩ := t
  obtain ⟨-, -, second_lt, nanos_lt, leap⟩ := id isTime
  unfold Whole at whole
  unfold shownSecond
  dsimp only at whole ⊢
  by_cases isLeap : 1000000000 ≤ nanos
  · left
    obtain rfl : second = 59 := leap isLeap
    obtain rfl : nanos = 1000000000 := by omega
    exact ⟨rfl, dif_pos isTime⟩
  · right
    obtain rfl : nanos = 0 := by omega
    rw [Nat.zero_div, Nat.add_zero]
    exact ⟨by omega, dif_pos isTime⟩

theorem TimeOfDay.shownSecond_le (t : TimeOfDay) : t.shownSecond ≤ 60 := by
  obtain ⟨-, -, second_lt, nanos_lt, -⟩ := t.isTime
  unfold shownSecond
  omega

/-- A time of day on a whole second reads back, whatever is behind it. -/
theorem TimeOfDay.readFrom?_chars {t : TimeOfDay} (whole : t.Whole) (rest : List Char) :
    TimeOfDay.readFrom? (t.chars ++ rest) = some (t, rest) := by
  obtain ⟨hour, minute, -⟩ := t.isTime
  have second := t.shownSecond_le
  have hourField := readField?_decimalPadded 2 (n := t.hour) (by decide) (by omega)
  have minuteField := readField?_decimalPadded 2 (n := t.minute) (by decide) (by omega)
  have secondField := readField?_decimalPadded 2 (n := t.shownSecond) (by decide) (by omega)
  simp only [TimeOfDay.readFrom?, TimeOfDay.chars, List.append_assoc, List.cons_append, hourField,
    minuteField, secondField, behindChar?, Option.bind_eq_bind, Option.bind_some, ↓reduceIte]
  rcases TimeOfDay.of?_shownSecond whole with ⟨leap, found⟩ | ⟨other, found⟩
  · rw [if_pos leap, found]
    rfl
  · rw [if_neg other, found]
    rfl

theorem TimeOfDay.skipBlanks_chars (t : TimeOfDay) : skipBlanks (' ' :: t.chars) = t.chars := by
  obtain ⟨c, cs, written, digit⟩ := decimalPadded_eq_cons 2 t.hour
  show skipBlanks t.chars = t.chars
  rw [TimeOfDay.chars, written, List.cons_append, skipBlanks_of_isDigit digit]

/-! ## Whole texts -/

theorem Date.read?_text (d : Date) : Date.read? d.text = some d := by
  have read := d.readFrom?_chars []
  rw [List.append_nil] at read
  rw [Date.read?, Date.text, String.toList_ofList, read]

theorem TimeOfDay.read?_text {t : TimeOfDay} (whole : t.Whole) :
    TimeOfDay.read? t.text = some t := by
  have read := TimeOfDay.readFrom?_chars whole []
  rw [List.append_nil] at read
  rw [TimeOfDay.read?, TimeOfDay.text, String.toList_ofList, read]

theorem Timestamp.read?_text {t : Timestamp} (whole : t.time.Whole) :
    Timestamp.read? t.text = some t := by
  have time := TimeOfDay.readFrom?_chars whole []
  rw [List.append_nil] at time
  rw [Timestamp.read?, Timestamp.text, String.toList_ofList, Timestamp.chars,
    Date.readFrom?_chars]
  show (TimeOfDay.readFrom? (skipBlanks (' ' :: t.time.chars))).bind _ = some t
  rw [TimeOfDay.skipBlanks_chars, time]
  rfl

/-! ## Texts as SQL values -/

namespace HostType

theorem decode?_date_text (s : String) : HostType.date.decode? (.text s) = Date.read? s := rfl

theorem decode?_time_text (s : String) : HostType.time.decode? (.text s) = TimeOfDay.read? s := rfl

theorem decode?_timestamp_text (s : String) :
    HostType.timestamp.decode? (.text s) = Timestamp.read? s := rfl

end HostType

/-! ## Texts of different kinds -/

theorem isDigit_of_mem_yearText {year : Int} {c : Char} (h : c ∈ yearText year) :
    isDigit c = true ∨ c = '-' ∨ c = '+' := by
  unfold yearText at h
  split at h
  · exact .inl (isDigit_of_mem_decimalPadded h)
  · rcases List.mem_cons.1 h with sign | digit
    · split at sign
      · exact .inr (.inl sign)
      · exact .inr (.inr sign)
    · exact .inl (isDigit_of_mem_decimalPadded digit)

theorem Date.of_mem_chars {d : Date} {c : Char} (h : c ∈ d.chars) :
    isDigit c = true ∨ c = '-' ∨ c = '+' := by
  simp only [Date.chars, List.mem_append, List.mem_cons] at h
  rcases h with year | rfl | month | rfl | day
  · exact isDigit_of_mem_yearText year
  · exact .inr (.inl rfl)
  · exact .inl (isDigit_of_mem_decimalPadded month)
  · exact .inr (.inl rfl)
  · exact .inl (isDigit_of_mem_decimalPadded day)

theorem TimeOfDay.of_mem_chars {t : TimeOfDay} {c : Char} (h : c ∈ t.chars) :
    isDigit c = true ∨ c = ':' := by
  simp only [TimeOfDay.chars, List.mem_append, List.mem_cons] at h
  rcases h with hour | rfl | minute | rfl | second
  · exact .inl (isDigit_of_mem_decimalPadded hour)
  · exact .inr rfl
  · exact .inl (isDigit_of_mem_decimalPadded minute)
  · exact .inr rfl
  · exact .inl (isDigit_of_mem_decimalPadded second)

/-- A date has no colon, which every time of day has. -/
theorem Date.chars_ne_time (d : Date) (t : TimeOfDay) : d.chars ≠ t.chars := by
  intro same
  have colon : ':' ∈ d.chars := by
    rw [same]
    simp [TimeOfDay.chars]
  exact absurd (Date.of_mem_chars colon) (by decide)

/-- A date has no space, which every timestamp has. -/
theorem Date.chars_ne_timestamp (d : Date) (t : Timestamp) : d.chars ≠ t.chars := by
  intro same
  have space : ' ' ∈ d.chars := by
    rw [same]
    simp [Timestamp.chars]
  exact absurd (Date.of_mem_chars space) (by decide)

theorem TimeOfDay.chars_ne_timestamp (t : TimeOfDay) (t' : Timestamp) : t.chars ≠ t'.chars := by
  intro same
  have space : ' ' ∈ t.chars := by
    rw [same]
    simp [Timestamp.chars]
  exact absurd (TimeOfDay.of_mem_chars space) (by decide)

/-! ## Moments -/

/-- A value of the calendar that its text shows as a whole. -/
inductive Moment where
  | date (d : Date)
  | time (t : TimeOfDay) (whole : t.Whole)
  | timestamp (t : Timestamp) (whole : t.time.Whole)

namespace Moment

/-- The host type of a moment. -/
def hostType : Moment → HostType
  | .date _ => .date
  | .time _ _ => .time
  | .timestamp _ _ => .timestamp

/-- A moment as a host value. -/
def value : (m : Moment) → m.hostType.Carrier
  | .date d => d
  | .time t _ => t
  | .timestamp t _ => t

/-- The characters of a moment. -/
def chars : Moment → List Char
  | .date d => d.chars
  | .time t _ => t.chars
  | .timestamp t _ => t.chars

theorem encode_value (m : Moment) :
    m.hostType.encode m.value = .text (String.ofList m.chars) := by
  cases m with
  | date d => rfl
  | time t whole => rfl
  | timestamp t whole => rfl

theorem decode?_encode (m : Moment) :
    m.hostType.decode? (m.hostType.encode m.value) = some m.value := by
  cases m with
  | date d => exact (HostType.decode?_date_text d.text).trans d.read?_text
  | time t whole => exact (HostType.decode?_time_text t.text).trans (TimeOfDay.read?_text whole)
  | timestamp t whole =>
    exact (HostType.decode?_timestamp_text t.text).trans (Timestamp.read?_text whole)

theorem chars_injective : Function.Injective chars := by
  intro m m' same
  have texts := congrArg String.ofList same
  cases m with
  | date d =>
    cases m' with
    | date d' =>
      have reads : Date.read? d.text = Date.read? d'.text := congrArg Date.read? texts
      rw [Date.read?_text, Date.read?_text, Option.some_inj] at reads
      rw [reads]
    | time t' _ => exact absurd same (d.chars_ne_time t')
    | timestamp t' _ => exact absurd same (d.chars_ne_timestamp t')
  | time t whole =>
    cases m' with
    | date d' => exact absurd same.symm (d'.chars_ne_time t)
    | time t' whole' =>
      have reads : TimeOfDay.read? t.text = TimeOfDay.read? t'.text :=
        congrArg TimeOfDay.read? texts
      rw [TimeOfDay.read?_text whole, TimeOfDay.read?_text whole', Option.some_inj] at reads
      subst reads
      rfl
    | timestamp t' _ => exact absurd same (t.chars_ne_timestamp t')
  | timestamp t whole =>
    cases m' with
    | date d' => exact absurd same.symm (d'.chars_ne_timestamp t)
    | time t' _ => exact absurd same.symm (t'.chars_ne_timestamp t)
    | timestamp t' whole' =>
      have reads : Timestamp.read? t.text = Timestamp.read? t'.text :=
        congrArg Timestamp.read? texts
      rw [Timestamp.read?_text whole, Timestamp.read?_text whole', Option.some_inj] at reads
      subst reads
      rfl

/-- Dates, times of day on whole seconds and timestamps of both come back from SQL as they
    went, and no two of them have one text. -/
theorem survives :
    (∀ m : Moment, m.hostType.decode? (m.hostType.encode m.value) = some m.value) ∧
      Function.Injective fun m : Moment => m.hostType.encode m.value := by
  refine ⟨decode?_encode, ?_⟩
  intro m m' same
  dsimp only at same
  rw [encode_value, encode_value, Value.text.injEq] at same
  exact chars_injective (String.ofList_injective same)

/-- The leap second of the last leap day before year zero. -/
theorem leapSecond_survives :
    HostType.timestamp.decode? (HostType.timestamp.encode
        ⟨⟨-4, 2, 29, by decide⟩, ⟨23, 59, 59, 1000000000, by decide⟩⟩) =
      some ⟨⟨-4, 2, 29, by decide⟩, ⟨23, 59, 59, 1000000000, by decide⟩⟩ :=
  survives.1 (.timestamp ⟨⟨-4, 2, 29, by decide⟩, ⟨23, 59, 59, 1000000000, by decide⟩⟩ (by decide))

end Moment

end Bindery
