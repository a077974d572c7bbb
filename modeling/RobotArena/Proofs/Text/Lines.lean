import RobotArena.Text.Blank

/-!
# Lines and outer blanks

A text cut into lines gives back the lines that it was written as, and blanks at either end of a
text do not show once it is trimmed.
-/

namespace RobotArena.Text

/-! ### Pieces -/

section Pieces

variable {cut : Char → Bool}

theorem joinFirst_ne_nil (c : Char) (parts : List (List Char)) : joinFirst c parts ≠ [] := by
  cases parts <;> exact List.cons_ne_nil _ _

theorem pieces_ne_nil (cs : List Char) : pieces cut cs ≠ [] := by
  cases cs with
  | nil => exact List.cons_ne_nil _ _
  | cons c rest =>
    unfold pieces
    split
    · exact List.cons_ne_nil _ _
    · exact joinFirst_ne_nil c _

theorem pieces_append_cons {front : List Char} (clean : ∀ c ∈ front, cut c = false) {c : Char}
    (cuts : cut c = true) (rest : List Char) :
    pieces cut (front ++ c :: rest) = front :: pieces cut rest := by
  induction front with
  | nil => simp [pieces, cuts]
  | cons d front ih =>
    have kept : cut d = false := clean d List.mem_cons_self
    rw [List.cons_append, pieces, kept, ih fun e member => clean e (List.mem_cons_of_mem _ member)]
    rfl

theorem cut_of_mem_pieces {cs piece : List Char} (member : piece ∈ pieces cut cs) :
    ∀ c ∈ piece, cut c = false := by
  induction cs generalizing piece with
  | nil =>
    cases List.mem_singleton.mp member
    exact nofun
  | cons c rest ih =>
    unfold pieces at member
    split at member
    · rcases List.mem_cons.mp member with rfl | later
      · exact nofun
      · exact ih later
    · rename_i kept
      cases parts : pieces cut rest with
      | nil => exact absurd parts (pieces_ne_nil rest)
      | cons first others =>
        rw [parts] at member ih
        rcases List.mem_cons.mp member with rfl | later
        · intro d inside
          rcases List.mem_cons.mp inside with rfl | inFirst
          · simpa using kept
          · exact ih List.mem_cons_self d inFirst
        · exact ih (List.mem_cons_of_mem _ later)

theorem joinFirst_append (c : Char) {parts : List (List Char)} (filled : parts ≠ [])
    (more : List (List Char)) : joinFirst c (parts ++ more) = joinFirst c parts ++ more := by
  cases parts with
  | nil => exact absurd rfl filled
  | cons first rest => rfl

theorem pieces_append (front rest : List Char) {c : Char} (cuts : cut c = true) :
    pieces cut (front ++ c :: rest) = pieces cut front ++ pieces cut rest := by
  induction front with
  | nil => simp [pieces, cuts]
  | cons d front ih =>
    rw [List.cons_append, pieces, pieces, ih]
    split
    · rfl
    · exact joinFirst_append d (pieces_ne_nil front) _

theorem pieces_clean {cs : List Char} (clean : ∀ c ∈ cs, cut c = false) : pieces cut cs = [cs] := by
  induction cs with
  | nil => rfl
  | cons c rest ih =>
    have kept : cut c = false := clean c List.mem_cons_self
    rw [pieces, kept, ih fun d member => clean d (List.mem_cons_of_mem _ member)]
    rfl

end Pieces

/-! ### Lines -/

/-- A line without the carriage return in front of its line feed. -/
def chomp (line : List Char) : List Char :=
  if line.getLast? == some '\r' then line.dropLast else line

/-- Lines written one after another, each with a line feed. -/
def written (raws : List (List Char)) : List Char :=
  raws.flatMap (· ++ ['\n'])

theorem clean_of_whole {raw : List Char} (whole : '\n' ∉ raw) : ∀ c ∈ raw, (c == '\n') = false :=
  fun _ inside => beq_false_of_ne fun same => whole (same ▸ inside)

/-- A line with a line feed stands in front of the lines of the rest. -/
theorem lines_cons {raw : List Char} (whole : '\n' ∉ raw) (rest : List Char) :
    lines (raw ++ '\n' :: rest) = chomp raw :: lines rest := by
  unfold lines
  rw [pieces_append_cons (clean_of_whole whole) rfl, List.reverse_cons]
  cases parts : (pieces (· == '\n') rest).reverse with
  | nil => exact absurd (List.reverse_eq_nil_iff.mp parts) (pieces_ne_nil rest)
  | cons last terminated =>
    dsimp only [List.cons_append]
    rw [List.map_append, List.map_singleton]
    split
    · exact List.reverse_concat
    · rw [← List.cons_append]
      exact List.reverse_concat

/-- A text without line feeds is one line. -/
theorem lines_single {raw : List Char} (filled : raw ≠ []) (whole : '\n' ∉ raw) :
    lines raw = [raw] := by
  unfold lines
  rw [pieces_clean (clean_of_whole whole), List.reverse_singleton]
  dsimp only
  rw [if_neg (by simpa using filled)]
  rfl

/-- What is written as lines is read as these lines. -/
theorem lines_written {raws : List (List Char)} (whole : ∀ raw ∈ raws, '\n' ∉ raw) :
    lines (written raws) = raws.map chomp := by
  induction raws with
  | nil => rfl
  | cons raw rest ih =>
    have later := ih fun line member => whole line (List.mem_cons_of_mem _ member)
    rw [written, List.flatMap_cons, List.append_assoc, List.singleton_append,
      lines_cons (whole raw List.mem_cons_self), List.map_cons, ← later, written]

theorem mem_of_mem_chomp {line : List Char} {c : Char} (inside : c ∈ chomp line) : c ∈ line := by
  unfold chomp at inside
  split at inside
  · exact List.dropLast_subset line inside
  · exact inside

theorem newline_of_mem_lines {cs raw : List Char} (member : raw ∈ lines cs) : '\n' ∉ raw := by
  have whole : ∀ piece ∈ pieces (· == '\n') cs, '\n' ∉ piece := fun piece inside newline =>
    absurd (cut_of_mem_pieces inside '\n' newline) (by decide)
  unfold lines at member
  split at member
  · cases member
  · rename_i last terminated split
    have inside : ∀ piece ∈ last :: terminated, '\n' ∉ piece := fun piece found =>
      whole piece (List.mem_reverse.mp (split ▸ found))
    have complete : raw ∈ terminated.map chomp → '\n' ∉ raw := by
      intro found
      obtain ⟨piece, old, rfl⟩ := List.mem_map.mp found
      exact fun newline => inside piece (List.mem_cons_of_mem _ old) (mem_of_mem_chomp newline)
    rw [List.mem_reverse] at member
    split at member
    · exact complete member
    · rcases List.mem_cons.mp member with rfl | old
      · exact inside _ List.mem_cons_self
      · exact complete old

theorem eq_chomp_or (line : List Char) : chomp line = line ∨ line = chomp line ++ ['\r'] := by
  unfold chomp
  split
  · rename_i last
    right
    obtain ⟨front, rfl⟩ := List.getLast?_eq_some_iff.mp (eq_of_beq last)
    rw [List.dropLast_concat]
  · exact .inl rfl

/-! ### Outer blanks -/

theorem trimStart_append {front : List Char} (blank : ∀ c ∈ front, isBlank c = true)
    (cs : List Char) : trimStart (front ++ cs) = trimStart cs :=
  List.dropWhile_append_of_pos blank

theorem trimEnd_append {back : List Char} (blank : ∀ c ∈ back, isBlank c = true)
    (cs : List Char) : trimEnd (cs ++ back) = trimEnd cs := by
  have blank : ∀ c ∈ back.reverse, isBlank c = true := fun c member =>
    blank c (List.mem_reverse.mp member)
  unfold trimEnd
  rw [List.reverse_append, List.dropWhile_append_of_pos blank]

theorem trim_append {back : List Char} (blank : ∀ c ∈ back, isBlank c = true) (cs : List Char) :
    trim (cs ++ back) = trim cs := by
  have gone : trimStart back = trimStart [] := by
    rw [← trimStart_append blank [], List.append_nil]
  unfold trim trimStart
  rw [List.dropWhile_append]
  split
  · rename_i empty
    rw [List.isEmpty_iff.mp empty]
    exact congrArg trimEnd gone
  · exact trimEnd_append blank _

theorem dropWhile_blank {cs : List Char} (sharp : ∀ c, cs.head? = some c → isBlank c = false) :
    cs.dropWhile isBlank = cs := by
  cases cs with
  | nil => rfl
  | cons c rest => rw [List.dropWhile_cons_of_neg (by simp [sharp c rfl])]

/-- Blanks around a text that neither starts nor ends with one are what trimming takes away. -/
theorem trim_around {front core back : List Char} (before : ∀ c ∈ front, isBlank c = true)
    (behind : ∀ c ∈ back, isBlank c = true) (first : ∀ c, core.head? = some c → isBlank c = false)
    (last : ∀ c, core.getLast? = some c → isBlank c = false) :
    trim (front ++ core ++ back) = core := by
  rw [trim_append behind]
  unfold trim
  rw [trimStart_append before]
  unfold trimStart trimEnd
  rw [dropWhile_blank first, dropWhile_blank (by rwa [List.head?_reverse]), List.reverse_reverse]

theorem dropWhile_concat {p : Char → Bool} {c : Char} (kept : p c = false) (cs : List Char) :
    ∃ rest, (cs ++ [c]).dropWhile p = rest ++ [c] := by
  rw [List.dropWhile_append]
  split
  · exact ⟨[], by simp [kept]⟩
  · exact ⟨_, rfl⟩

/-- Trimming leaves something of a text that does not end with a blank. -/
theorem trim_concat_ne_nil {c : Char} (sharp : isBlank c = false) (cs : List Char) :
    trim (cs ++ [c]) ≠ [] := by
  obtain ⟨rest, start⟩ := dropWhile_concat sharp cs
  unfold trim trimStart trimEnd
  rw [start, List.reverse_append, List.reverse_singleton, List.singleton_append,
    List.dropWhile_cons_of_neg (by simp [sharp])]
  simp

/-! ### Heads -/

theorem eq_append_of_dropHead? {head cs rest : List Char} (h : dropHead? head cs = some rest) :
    cs = head ++ rest := by
  unfold dropHead? at h
  split at h
  · rename_i starts
    obtain ⟨more, rfl⟩ := List.isPrefixOf_iff_prefix.mp starts
    rw [List.drop_left] at h
    cases h
    rfl
  · cases h

end RobotArena.Text
