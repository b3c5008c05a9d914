import Mathlib.Data.List.Basic
import Mathlib.Data.List.SplitBy

/-!
# Tables as text

A reader of comma separated values goes through the text character by character. A
quotation begins with a field; commas and line breaks inside of it are text, and two quotes
are one. What follows a quotation is read as text up to the next comma. A line break is a
line feed, a carriage return, or the two in this order, and the last record may do without.
-/
namespace GreenWallet.Library.Csv

abbrev Text := List Char

/-- Where the reader is: before a field, in a field, in a quotation, right after a quote in a
quotation, or right after a carriage return that has ended a record. -/
inductive Mode where
  | start
  | plain
  | quoted
  | closing
  | returned
deriving DecidableEq

/-- What a character is read as. -/
inductive Mark where
  | text (c : Char)
  | quote
  | field
  | record
deriving DecidableEq

def Mark.char? : Mark → Option Char
  | text c => some c
  | quote | field | record => none

def Mode.outside (c : Char) : Mode × List Mark :=
  if c = ',' then (.start, [.field])
  else if c = '\n' then (.start, [.record])
  else if c = '\r' then (.returned, [.record])
  else (.plain, [.text c])

/-- A line feed after a carriage return belongs to the same line break. -/
def Mode.read : Mode → Char → Mode × List Mark
  | start, c => if c = '"' then (quoted, [.quote]) else outside c
  | plain, c => outside c
  | quoted, c => if c = '"' then (closing, [.quote]) else (quoted, [.text c])
  | closing, c => if c = '"' then (quoted, [.text c]) else outside c
  | returned, c =>
      if c = '\n' then (start, []) else if c = '"' then (quoted, [.quote]) else outside c

def marksFrom : Mode → Text → List Mark
  | _, [] => []
  | m, c :: cs => (m.read c).2 ++ marksFrom (m.read c).1 cs

def modeFrom : Mode → Text → Mode
  | m, [] => m
  | m, c :: cs => modeFrom (m.read c).1 cs

/-- What a text is read as by itself. -/
def marks (s : Text) : List Mark := marksFrom .start s

/-- The text leaves no quotation open. -/
def Closed (s : Text) : Prop := modeFrom .start s ≠ .quoted

instance (s : Text) : Decidable (Closed s) := inferInstanceAs (Decidable (_ ≠ _))

def readRecord (marks : List Mark) : List Text :=
  (marks.splitOn .field).map fun field => field.filterMap Mark.char?

/-- The end of the text ends a record, unless a line break has just done so. -/
def finished (s : Text) : List Mark :=
  if s = [] ∨ (marks s).getLast? = some .record then marks s else marks s ++ [.record]

def read (s : Text) : List (List Text) := ((finished s).splitOn .record).dropLast.map readRecord

/-- The values of a line without any quotation. -/
def join (line : List Text) : Text := [','].intercalate line

def write (lines : List (List Text)) : Text := ['\n'].intercalate (lines.map join)

/-- A first record, and as many others with as many fields. -/
def KeepsColumns (s : Text) (rows : ℕ) : Prop := ∃ header records,
  read s = header :: records ∧ records.length = rows ∧
    ∀ record ∈ records, record.length = header.length

/-- The commas outside of quotations in the values of a line. -/
def bareCommas (line : List Text) : ℕ := (line.flatMap marks).count .field

/-- Without a carriage return at the end. -/
def trimmed (s : Text) : Text := if s.getLast? = some '\r' then s.dropLast else s

/-- The values of a line, where a carriage return at the end of the last one belongs to the line
break. -/
def values : List Text → List Text
  | [] => []
  | [s] => [trimmed s]
  | s :: line => s :: values line

/-! ## One character after the other -/

theorem marksFrom_append (m : Mode) (s t : Text) :
    marksFrom m (s ++ t) = marksFrom m s ++ marksFrom (modeFrom m s) t := by
  induction s generalizing m with
  | nil => rfl
  | cons c cs ih => rw [List.cons_append, marksFrom, ih, marksFrom, modeFrom, List.append_assoc]

theorem modeFrom_append (m : Mode) (s t : Text) :
    modeFrom m (s ++ t) = modeFrom (modeFrom m s) t := by
  induction s generalizing m with
  | nil => rfl
  | cons c cs ih => rw [List.cons_append, modeFrom, ih, modeFrom]

theorem marksFrom_concat (m : Mode) (s : Text) (c : Char) :
    marksFrom m (s ++ [c]) = marksFrom m s ++ ((modeFrom m s).read c).2 := by
  rw [marksFrom_append, marksFrom, marksFrom, List.append_nil]

theorem modeFrom_concat (m : Mode) (s : Text) (c : Char) :
    modeFrom m (s ++ [c]) = ((modeFrom m s).read c).1 := by
  rw [modeFrom_append]
  rfl

/-- Outside of a quotation a comma ends the field, and a line break the record. -/
theorem read_comma {m : Mode} (hm : m ≠ .quoted) : m.read ',' = (.start, [.field]) := by
  cases m with
  | quoted => exact (hm rfl).elim
  | _ => rfl

theorem read_lineFeed {m : Mode} (hm : m ≠ .quoted) :
    m.read '\n' = (.start, if m = .returned then [] else [.record]) := by
  cases m with
  | quoted => exact (hm rfl).elim
  | _ => rfl

theorem read_carriageReturn {m : Mode} (hm : m ≠ .quoted) :
    m.read '\r' = (.returned, [.record]) := by
  cases m with
  | quoted => exact (hm rfl).elim
  | _ => rfl

theorem read_quoted_fst {c : Char} (hc : c ≠ '"') : (Mode.quoted.read c).1 = .quoted := by
  simp only [Mode.read, if_neg hc]

/-- Other characters than line breaks are read as one mark, which ends no record. -/
theorem read_other {m : Mode} {c : Char} (hline : c ≠ '\n') (hreturn : c ≠ '\r') :
    (m.read c).1 ≠ .returned ∧ ∃ mark, (m.read c).2 = [mark] ∧ mark ≠ .record := by
  cases m <;> simp only [Mode.read, Mode.outside] <;> split_ifs <;> simp_all

theorem marks_ne_nil {s : Text} (hs : s ≠ []) : marks s ≠ [] := by
  cases s with
  | nil => exact absurd rfl hs
  | cons c cs =>
      have hfirst : (Mode.start.read c).2 ≠ [] := by
        simp only [Mode.read, Mode.outside]
        split_ifs <;> simp
      rw [marks, marksFrom]
      exact List.append_ne_nil_of_left_ne_nil hfirst _

/-! ## The end of a line -/

/-- What a text is read as at the end of a line. -/
def ended (s : Text) : List Mark :=
  marks s ++ if modeFrom .start s = .returned then [] else [.record]

theorem eq_concat_of_getLast? {s : Text} {c : Char} (h : s.getLast? = some c) :
    s = s.dropLast ++ [c] := (List.dropLast_append_getLast? c h).symm

theorem closed_of_concat_return {s : Text} (h : Closed (s ++ ['\r'])) : Closed s := by
  intro hquoted
  apply h
  rw [modeFrom_concat, hquoted]
  exact read_quoted_fst (by decide)

theorem closed_trimmed {s : Text} (hs : Closed s) : Closed (trimmed s) := by
  unfold trimmed
  split_ifs with hlast
  · rw [eq_concat_of_getLast? hlast] at hs
    exact closed_of_concat_return hs
  · exact hs

/-- The carriage return at the end of a text is read as the end of its record. -/
theorem marks_of_trimmed {s : Text} (hs : Closed s) :
    marks s = marks (trimmed s) ++ (if s.getLast? = some '\r' then [.record] else []) ∧
      (modeFrom .start s = .returned ↔ s.getLast? = some '\r') := by
  unfold trimmed
  split_ifs with hlast
  · have hsplit := eq_concat_of_getLast? hlast
    have hmode : modeFrom .start s.dropLast ≠ .quoted := by
      rw [hsplit] at hs
      exact closed_of_concat_return hs
    have hread := read_carriageReturn hmode
    have hmarks := marksFrom_concat .start s.dropLast '\r'
    have hreturned := modeFrom_concat .start s.dropLast '\r'
    rw [← hsplit, hread] at hmarks hreturned
    exact ⟨hmarks, iff_of_true hreturned hlast⟩
  · refine ⟨(List.append_nil _).symm, iff_of_false ?_ hlast⟩
    intro hreturned
    cases hc : s.getLast? with
    | none =>
        rw [List.getLast?_eq_none_iff] at hc
        rw [hc] at hreturned
        cases hreturned
    | some c =>
        rw [eq_concat_of_getLast? hc, modeFrom_concat] at hreturned
        by_cases hline : c = '\n'
        · subst hline
          by_cases hquoted : modeFrom .start s.dropLast = .quoted
          · rw [hquoted] at hreturned
            cases hreturned
          · rw [read_lineFeed hquoted] at hreturned
            cases hreturned
        · have hreturn : c ≠ '\r' := by
            rintro rfl
            exact hlast hc
          exact (read_other hline hreturn).1 hreturned

/-- At the end of a line a carriage return is one with the line feed. -/
theorem ended_eq {s : Text} (hs : Closed s) : ended s = marks (trimmed s) ++ [.record] := by
  obtain ⟨hmarks, hreturned⟩ := marks_of_trimmed hs
  rw [ended, hmarks, List.append_assoc]
  by_cases hlast : s.getLast? = some '\r'
  · rw [if_pos hlast, if_pos (hreturned.mpr hlast), List.append_nil]
  · rw [if_neg hlast, if_neg (fun hmode => hlast (hreturned.mp hmode)), List.nil_append]

theorem marks_separated {s : Text} (hs : Closed s) (t : Text) :
    marks (s ++ '\n' :: t) = ended s ++ marks t := by
  rw [marks, marksFrom_append, marksFrom, read_lineFeed hs, ended, List.append_assoc]
  rfl

theorem finished_separated {s t : Text} (hs : Closed s) (ht : t ≠ []) :
    finished (s ++ '\n' :: t) = ended s ++ finished t := by
  have hlast : (ended s ++ marks t).getLast? = (marks t).getLast? :=
    List.getLast?_append_of_ne_nil _ (marks_ne_nil ht)
  have hne : s ++ '\n' :: t ≠ [] := List.append_ne_nil_of_right_ne_nil _ (List.cons_ne_nil _ _)
  unfold finished
  rw [marks_separated hs, hlast]
  simp only [hne, ht, false_or]
  split_ifs
  · rfl
  · rw [List.append_assoc]

/-- The last line, which does not end in a line feed. -/
theorem finished_eq_ended {s : Text} (hs : Closed s) (hne : s ≠ []) (hline : s.getLast? ≠ some '\n') :
    finished s = ended s := by
  obtain ⟨c, hc⟩ : ∃ c, s.getLast? = some c :=
    Option.isSome_iff_exists.mp (List.getLast?_isSome.mpr hne)
  have hsplit := eq_concat_of_getLast? hc
  have hreturned := (marks_of_trimmed hs).2
  have hmarks : marks s = marks s.dropLast ++ ((modeFrom .start s.dropLast).read c).2 := by
    rw [hsplit, marks, marksFrom_concat]
    simp [marks]
  unfold finished ended
  simp only [hne, false_or]
  by_cases hreturn : c = '\r'
  · subst hreturn
    have hmode : modeFrom .start s.dropLast ≠ .quoted := by
      rw [hsplit] at hs
      exact closed_of_concat_return hs
    rw [read_carriageReturn hmode] at hmarks
    have hrecord : (marks s).getLast? = some .record := by rw [hmarks, List.getLast?_concat]
    rw [if_pos hrecord, if_pos (hreturned.mpr hc), List.append_nil]
  · have hother : c ≠ '\n' := by
      rintro rfl
      exact hline hc
    obtain ⟨mark, hmark, hnot⟩ := (read_other hother hreturn).2
    rw [hmark] at hmarks
    have hrecord : (marks s).getLast? ≠ some .record := by
      rw [hmarks, List.getLast?_concat]
      exact fun h => hnot (Option.some.inj h)
    have hmode : modeFrom .start s ≠ .returned := by
      rw [Ne, hreturned, hc]
      exact fun h => hreturn (Option.some.inj h)
    rw [if_neg hrecord, if_neg hmode]

/-! ## The values of a line -/

theorem join_singleton (s : Text) : join [s] = s := List.intercalate_singleton

theorem join_cons (s : Text) {line : List Text} (hline : line ≠ []) :
    join (s :: line) = s ++ ',' :: join line := by
  rw [join, List.intercalate_cons_of_ne_nil hline, List.append_assoc]
  rfl

/-- Values that leave no quotation open are read one by one. -/
theorem marks_join {line : List Text} (h : ∀ s ∈ line, Closed s) :
    marks (join line) = [.field].intercalate (line.map marks) ∧ Closed (join line) := by
  induction line with
  | nil => exact ⟨rfl, Mode.noConfusion⟩
  | cons s line ih =>
      have hs := h s List.mem_cons_self
      obtain ⟨hmarks, hclosed⟩ := ih fun t ht => h t (List.mem_cons_of_mem s ht)
      by_cases hlast : line = []
      · subst hlast
        simpa [join] using hs
      · have hlast' : line.map marks ≠ [] := by simpa using hlast
        rw [join_cons s hlast]
        constructor
        · rw [marks, marksFrom_append, marksFrom, read_comma hs, List.map_cons,
            List.intercalate_cons_of_ne_nil hlast', ← hmarks, List.append_assoc]
          rfl
        · rw [Closed, modeFrom_append, modeFrom, read_comma hs]
          exact hclosed

theorem closed_values {line : List Text} (h : ∀ s ∈ line, Closed s) :
    ∀ s ∈ values line, Closed s := by
  induction line using values.induct with
  | case1 => exact h
  | case2 s =>
      intro t ht
      rw [List.mem_singleton.mp ht]
      exact closed_trimmed (h s List.mem_cons_self)
  | case3 s line hline ih =>
      have hvalues : values (s :: line) = s :: values line := by
        cases line with
        | nil => exact absurd rfl hline
        | cons => rfl
      rw [hvalues]
      intro t ht
      rcases List.mem_cons.mp ht with rfl | hrest
      · exact h t List.mem_cons_self
      · exact ih (fun u hu => h u (List.mem_cons_of_mem s hu)) t hrest

theorem trimmed_append_cons (s : Text) {c : Char} (hc : c ≠ '\r') (t : Text) :
    trimmed (s ++ c :: t) = s ++ c :: trimmed t := by
  unfold trimmed
  cases t using List.reverseRecOn with
  | nil =>
      have hlast : (s ++ [c]).getLast? ≠ some '\r' := by
        rw [List.getLast?_concat]
        exact fun h => hc (Option.some.inj h)
      rw [if_neg hlast]
      rfl
  | append_singleton t d =>
      have hsplit : s ++ c :: (t ++ [d]) = (s ++ c :: t) ++ [d] := by simp
      rw [hsplit, List.getLast?_concat, List.getLast?_concat, List.dropLast_concat,
        List.dropLast_concat]
      split_ifs
      · rfl
      · exact hsplit.symm

theorem values_cons (s : Text) {line : List Text} (hline : line ≠ []) :
    values (s :: line) = s :: values line := by
  cases line with
  | nil => exact absurd rfl hline
  | cons => rfl

theorem trimmed_join (line : List Text) : trimmed (join line) = join (values line) := by
  induction line with
  | nil => rfl
  | cons s line ih =>
      by_cases hlast : line = []
      · subst hlast
        rw [join_singleton, values, join_singleton]
      · have hvalues : values line ≠ [] := by
          cases line with
          | nil => exact absurd rfl hlast
          | cons t rest => cases rest <;> exact List.cons_ne_nil _ _
        rw [join_cons s hlast, values_cons s hlast, join_cons s hvalues, ← ih]
        exact trimmed_append_cons s (by decide) (join line)

/-- A line of two values or more that leaves no quotation open, and whose last value has no line
feed. -/
structure Regular (line : List Text) : Prop where
  closed : ∀ s ∈ line, Closed s
  length : 1 < line.length
  last : ∀ s ∈ line.getLast?, '\n' ∉ s

theorem getLast?_join {line : List Text} (hne : line ≠ []) (h : ∀ s ∈ line.getLast?, '\n' ∉ s) :
    (join line).getLast? ≠ some '\n' := by
  induction line with
  | nil => exact absurd rfl hne
  | cons s line ih =>
      by_cases hlast : line = []
      · subst hlast
        rw [join_singleton]
        intro hfeed
        exact h s rfl (List.mem_of_getLast? hfeed)
      · have hrest := ih hlast (fun t ht => h t (by rwa [List.getLast?_cons_of_ne_nil hlast]))
        rw [join_cons s hlast]
        cases hjoin : join line with
        | nil =>
            rw [List.getLast?_concat]
            decide
        | cons c cs =>
            rw [hjoin] at hrest
            rw [List.append_cons, List.getLast?_append_of_ne_nil _ (List.cons_ne_nil c cs)]
            exact hrest

namespace Regular
variable {line : List Text}

theorem ne_nil (h : Regular line) : line ≠ [] := by
  rintro rfl
  exact absurd h.length (by simp)

theorem join_ne_nil (h : Regular line) : join line ≠ [] := by
  cases line with
  | nil => exact absurd rfl h.ne_nil
  | cons s line =>
      have hline : line ≠ [] := by
        rintro rfl
        exact absurd h.length (by simp)
      rw [join_cons s hline]
      exact List.append_ne_nil_of_right_ne_nil _ (List.cons_ne_nil _ _)

theorem ended_eq (h : Regular line) :
    ended (join line) = marks (join (values line)) ++ [.record] := by
  rw [Csv.ended_eq (marks_join h.closed).2, trimmed_join]

theorem finished_eq (h : Regular line) :
    finished (join line) = marks (join (values line)) ++ [.record] := by
  rw [finished_eq_ended (marks_join h.closed).2 h.join_ne_nil (getLast?_join h.ne_nil h.last),
    h.ended_eq]

end Regular

theorem write_cons (line : List Text) {lines : List (List Text)} (hlines : lines ≠ []) :
    write (line :: lines) = join line ++ '\n' :: write lines := by
  have hne : lines.map join ≠ [] := by simpa using hlines
  rw [write, List.map_cons, List.intercalate_cons_of_ne_nil hne, List.append_assoc]
  rfl

theorem write_ne_nil {lines : List (List Text)} (hne : lines ≠ [])
    (h : ∀ line ∈ lines, Regular line) : write lines ≠ [] := by
  cases lines with
  | nil => exact absurd rfl hne
  | cons line lines =>
      have hline := (h line List.mem_cons_self).join_ne_nil
      by_cases hlast : lines = []
      · subst hlast
        simpa [write] using hline
      · rw [write_cons line hlast]
        exact List.append_ne_nil_of_left_ne_nil hline _

/-- Regular lines are read one by one. -/
theorem finished_write {lines : List (List Text)} (hne : lines ≠ [])
    (h : ∀ line ∈ lines, Regular line) :
    finished (write lines) =
      (lines.map fun line => marks (join (values line)) ++ [.record]).flatten := by
  induction lines with
  | nil => exact absurd rfl hne
  | cons line lines ih =>
      have hline := h line List.mem_cons_self
      have hrest : ∀ other ∈ lines, Regular other :=
        fun other hother => h other (List.mem_cons_of_mem line hother)
      by_cases hlast : lines = []
      · subst hlast
        simpa [write] using hline.finished_eq
      · rw [write_cons line hlast, finished_separated (marks_join hline.closed).2
          (write_ne_nil hlast hrest), ih hlast hrest, hline.ended_eq, List.map_cons,
          List.flatten_cons]

/-! ## Counting -/

theorem length_splitOn {α : Type*} [BEq α] (a : α) (s : List α) :
    (s.splitOn a).length = s.count a + 1 := by
  induction s with
  | nil => rfl
  | cons b s ih =>
      rw [List.splitOn_cons_eq_if_modifyHead, List.count_cons]
      split_ifs with h
      · rw [List.length_cons, ih]
      · rw [List.length_modifyHead, ih]

theorem splitOn_terminated {α : Type*} [BEq α] [LawfulBEq α] (a : α) {lines : List (List α)}
    (h : ∀ line ∈ lines, a ∉ line) :
    ((lines.map fun line => line ++ [a]).flatten).splitOn a = lines ++ [[]] := by
  induction lines with
  | nil => rfl
  | cons line lines ih =>
      rw [List.map_cons, List.flatten_cons, List.append_assoc, List.singleton_append,
        List.splitOn_append_cons_self_of_not_mem (h line List.mem_cons_self),
        ih fun other hother => h other (List.mem_cons_of_mem line hother), List.cons_append]

theorem count_intercalate {α : Type*} [BEq α] (a b : α) (lines : List (List α)) :
    ([a].intercalate lines).count b =
      lines.flatten.count b + if a == b then lines.length - 1 else 0 := by
  induction lines with
  | nil => simp
  | cons line lines ih =>
      by_cases hlast : lines = []
      · simp [hlast]
      · have hpos : 0 < lines.length := List.length_pos_of_ne_nil hlast
        rw [List.intercalate_cons_of_ne_nil hlast, List.count_append, List.count_append, ih,
          List.flatten_cons, List.count_append, List.length_cons, List.count_singleton]
        split_ifs <;> omega

/-- A record has a field more than there are separators. -/
theorem length_readRecord (marks : List Mark) : (readRecord marks).length = marks.count .field + 1 := by
  rw [readRecord, List.length_map, length_splitOn]

theorem length_read (s : Text) : (read s).length = (finished s).count .record := by
  rw [read, List.length_map, List.length_dropLast, length_splitOn, Nat.add_sub_cancel]

theorem length_values (line : List Text) : (values line).length = line.length := by
  induction line with
  | nil => rfl
  | cons s line ih =>
      by_cases hlast : line = []
      · subst hlast
        rfl
      · rw [values_cons s hlast, List.length_cons, List.length_cons, ih]

/-- A carriage return at the end is no comma. -/
theorem bareCommas_values {line : List Text} (h : ∀ s ∈ line, Closed s) :
    bareCommas (values line) = bareCommas line := by
  induction line with
  | nil => rfl
  | cons s line ih =>
      have hrest := ih fun t ht => h t (List.mem_cons_of_mem s ht)
      by_cases hlast : line = []
      · subst hlast
        have hmarks := (marks_of_trimmed (h s List.mem_cons_self)).1
        have hcount : (marks s).count .field = (marks (trimmed s)).count .field := by
          rw [hmarks, List.count_append]
          split_ifs <;> simp
        simpa [bareCommas, values] using hcount.symm
      · unfold bareCommas at hrest ⊢
        rw [values_cons s hlast, List.flatMap_cons, List.flatMap_cons, List.count_append,
          List.count_append, hrest]

theorem length_readRecord_line {line : List Text} (h : ∀ s ∈ line, Closed s) :
    (readRecord (marks (join (values line)))).length =
      bareCommas line + (line.length - 1) + 1 := by
  rw [length_readRecord, (marks_join (closed_values h)).1, count_intercalate,
    ← bareCommas_values h, bareCommas, List.flatMap_def, List.length_map, length_values,
    if_pos (by rfl)]

theorem record_mem_line {line : List Text} (h : ∀ s ∈ line, Closed s) :
    .record ∈ marks (join (values line)) ↔ ∃ s ∈ values line, .record ∈ marks s := by
  rw [(marks_join (closed_values h)).1, ← List.count_pos_iff, count_intercalate,
    if_neg (by decide), Nat.add_zero, List.count_pos_iff]
  simp

/-! ## Tables -/

/-- Without a line break outside of quotations, every line is a record. -/
theorem read_write {lines : List (List Text)} (hne : lines ≠ [])
    (hregular : ∀ line ∈ lines, Regular line)
    (h : ∀ line ∈ lines, ∀ s ∈ values line, .record ∉ marks s) :
    read (write lines) = lines.map fun line => readRecord (marks (join (values line))) := by
  have hnone : ∀ line ∈ lines.map (fun line => marks (join (values line))), .record ∉ line := by
    intro line hline
    obtain ⟨line, hmem, rfl⟩ := List.mem_map.mp hline
    rw [record_mem_line (hregular line hmem).closed]
    rintro ⟨s, hs, hrecord⟩
    exact h line hmem s hs hrecord
  have hsplit := splitOn_terminated Mark.record hnone
  rw [List.map_map] at hsplit
  rw [read, finished_write hne hregular]
  change (List.splitOn Mark.record
    (lines.map ((fun line => line ++ [.record]) ∘ fun line => marks (join (values line)))).flatten
    |>.dropLast).map readRecord = _
  rw [hsplit, List.dropLast_concat, List.map_map]
  rfl

/-- With one, there are more records than lines. -/
theorem lt_length_read {lines : List (List Text)} (hregular : ∀ line ∈ lines, Regular line)
    (h : ∃ line ∈ lines, ∃ s ∈ values line, .record ∈ marks s) :
    lines.length < (read (write lines)).length := by
  obtain ⟨line, hline, hrecord⟩ := h
  have hne : lines ≠ [] := List.ne_nil_of_mem hline
  have hcount := List.count_pos_iff.mpr ((record_mem_line (hregular line hline).closed).mpr hrecord)
  obtain ⟨before, after, hsplit⟩ := List.append_of_mem hline
  have hterminated : ∀ lines : List (List Text), lines.length ≤
      ((lines.map fun line => marks (join (values line)) ++ [Mark.record]).flatten).count .record := by
    intro lines
    induction lines with
    | nil => exact Nat.zero_le _
    | cons line lines ih =>
        rw [List.map_cons, List.flatten_cons, List.count_append, List.count_append,
          List.length_cons, List.count_singleton_self]
        omega
  have hbefore := hterminated before
  have hafter := hterminated after
  rw [length_read, finished_write hne hregular, hsplit]
  simp only [List.map_append, List.map_cons, List.flatten_append, List.flatten_cons,
    List.count_append, List.count_singleton_self, List.length_append, List.length_cons]
  omega

/-- Among values that leave no quotation open, a table keeps its columns exactly when no
value has a line break outside of quotations, up to a carriage return at the end of a line, and
every line has as many commas there. -/
theorem write_keepsColumns_iff {fields : List Text} {rows : List (List Text)}
    (hrows : ∀ row ∈ rows, row.length = fields.length)
    (hregular : ∀ line ∈ fields :: rows, Regular line) :
    KeepsColumns (write (fields :: rows)) rows.length ↔
      (∀ line ∈ fields :: rows, ∀ s ∈ values line, .record ∉ marks s) ∧
        ∀ row ∈ rows, bareCommas row = bareCommas fields := by
  by_cases hnone : ∀ line ∈ fields :: rows, ∀ s ∈ values line, .record ∉ marks s
  · have hlength : ∀ row ∈ rows,
        (readRecord (marks (join (values row)))).length =
          (readRecord (marks (join (values fields)))).length ↔
            bareCommas row = bareCommas fields := by
      intro row hrow
      rw [length_readRecord_line (hregular row (List.mem_cons_of_mem _ hrow)).closed,
        length_readRecord_line (hregular fields List.mem_cons_self).closed, hrows row hrow]
      omega
    rw [KeepsColumns, read_write (List.cons_ne_nil _ _) hregular hnone, List.map_cons]
    constructor
    · rintro ⟨header, records, hread, -, hrecords⟩
      obtain ⟨rfl, rfl⟩ := List.cons.inj hread
      refine ⟨hnone, fun row hrow => (hlength row hrow).mp ?_⟩
      exact hrecords _ (List.mem_map_of_mem hrow)
    · rintro ⟨-, hcommas⟩
      refine ⟨_, _, rfl, List.length_map _, fun record hrecord => ?_⟩
      obtain ⟨row, hrow, rfl⟩ := List.mem_map.mp hrecord
      exact (hlength row hrow).mpr (hcommas row hrow)
  · have hex : ∃ line ∈ fields :: rows, ∃ s ∈ values line, .record ∈ marks s := by
      push Not at hnone
      exact hnone
    have hlong := lt_length_read hregular hex
    constructor
    · rintro ⟨header, records, hread, hlength, -⟩
      rw [hread, List.length_cons, List.length_cons, hlength] at hlong
      omega
    · rintro ⟨hall, -⟩
      exact (hnone hall).elim

end GreenWallet.Library.Csv
