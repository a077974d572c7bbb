import RobotArena.Proofs.Memory.Fields

/-!
# Printed bytes

What is printed is appended to a buffer in memory, and the oldest bytes are shifted out of it. The main
statement is that the buffer holds the newest of all bytes that were printed, whatever a program has left in
the word that counts them.
-/

namespace RobotArena

/-! ### The newest items -/

section Newest

variable {α : Type}

/-- The last `n` items of a list, or all if there are no more. -/
def newest (n : Nat) (items : List α) : List α :=
  items.drop (items.length - n)

theorem length_newest (n : Nat) (items : List α) : (newest n items).length = min n items.length := by
  rw [newest, List.length_drop]
  omega

/-- Of what comes before many enough items nothing is kept. -/
theorem newest_append_of_le {n : Nat} {items : List α} (enough : n ≤ items.length) (older : List α) :
    newest n (older ++ items) = newest n items := by
  have shift : (older ++ items).length - n = older.length + (items.length - n) := by
    rw [List.length_append]
    omega
  rw [newest, newest, shift, List.drop_length_add_append]

/-- What has been dropped once plays no further part. -/
theorem newest_newest_append (n : Nat) (older items : List α) :
    newest n (newest n older ++ items) = newest n (older ++ items) := by
  by_cases few : older.length ≤ n
  · have all : newest n older = older := by rw [newest, Nat.sub_eq_zero_of_le few, List.drop_zero]
    rw [all]
  · have split : older.take (older.length - n) ++ newest n older = older := List.take_append_drop _ _
    have enough : n ≤ (newest n older ++ items).length := by
      rw [List.length_append, length_newest]
      omega
    rw [← newest_append_of_le enough (older.take (older.length - n)), ← List.append_assoc, split]

end Newest

/-! ### The buffer -/

namespace Memory

open Layout

variable (m : Memory)

theorem stdoutUsed_le : m.stdoutUsed ≤ stdoutCapacity :=
  Nat.min_le_right _ _

theorem length_stdout : m.stdout.length = m.stdoutUsed :=
  m.length_bytesAt _ _

theorem within_buffer {address : Nat} {bs : List UInt8} (low : Layout.stdout ≤ address)
    (high : address + bs.length ≤ Layout.stdout + stdoutCapacity) :
    Within stdoutFields m (m.setBytes address bs) :=
  Within.setBytesAt (f := ⟨Layout.stdout, stdoutCapacity⟩) (by simp [stdoutFields]) low high

/-- Nothing but the printed bytes and their count differs, and these are the bytes that are shown. -/
structure Shows (m m' : Memory) (shown : List UInt8) : Prop where
  stdout : m'.stdout = shown
  count : (m'.wordAt stdoutLength).toNat = shown.length
  within : Within stdoutFields m m'

/-- Where the count is set, as many bytes of the buffer are shown. -/
theorem shows_setWord {m m' : Memory} {shown : List UInt8} {n : Nat} (within : Within stdoutFields m m')
    (written : m'.bytesAt Layout.stdout n = shown) (fits : n ≤ stdoutCapacity) :
    m.Shows (m'.setWord stdoutLength (UInt32.ofNat n)) shown := by
  have length : shown.length = n := by rw [← written, length_bytesAt]
  have count : ((m'.setWord stdoutLength (UInt32.ofNat n)).wordAt stdoutLength).toNat = n := by
    rw [setWord, wordAt_setBytes_toBytes _ _ _ (by decide)]
    exact UInt32.toNat_ofNat_of_lt' (Nat.lt_of_le_of_lt fits (by decide))
  refine ⟨?_, count.trans length.symm, within.trans (.setWord (by simp [stdoutFields]) _)⟩
  have used : (m'.setWord stdoutLength (UInt32.ofNat n)).stdoutUsed = n := by
    rw [stdoutUsed, count]
    exact Nat.min_eq_left fits
  rw [Memory.stdout, used, ← written]
  exact bytesAt_setBytes_outside m' _ (.inl (Nat.add_le_add_left fits _))

theorem bytesAt_shiftStdout {dropped : Nat} (some : dropped ≤ m.stdoutUsed) :
    (m.shiftStdout dropped).bytesAt Layout.stdout (m.stdoutUsed - dropped) = m.stdout.drop dropped := by
  have fits := m.stdoutUsed_le
  have split : m.stdoutUsed = dropped + (m.stdoutUsed - dropped) := by omega
  have rest : m.stdout.drop dropped =
      m.bytesAt (Layout.stdout + dropped) (m.stdoutUsed - dropped) := by
    rw [Memory.stdout, split, bytesAt_add, Nat.add_sub_cancel_left,
      List.drop_left' (m.length_bytesAt _ _)]
  have length := m.length_bytesAt (Layout.stdout + dropped) (m.stdoutUsed - dropped)
  have room : Layout.stdout + stdoutCapacity ≤ size := by decide
  rw [rest, shiftStdout]
  generalize m.bytesAt (Layout.stdout + dropped) (m.stdoutUsed - dropped) = kept at length ⊢
  rw [← length]
  exact m.bytesAt_setBytes_self _ (by omega)

theorem within_shiftStdout (dropped : Nat) : Within stdoutFields m (m.shiftStdout dropped) := by
  have fits := m.stdoutUsed_le
  refine m.within_buffer (Nat.le_refl _) ?_
  rw [length_bytesAt]
  omega

/-- What is written behind some bytes stands behind them. -/
theorem bytesAt_setBytes_behind {n : Nat} {bs : List UInt8} (address : Nat)
    (room : address + n + bs.length ≤ size) :
    (m.setBytes (address + n) bs).bytesAt address (n + bs.length) = m.bytesAt address n ++ bs := by
  rw [bytesAt_add, bytesAt_setBytes_self _ _ room,
    bytesAt_setBytes_outside _ _ (.inl (Nat.le_refl _))]

/-- Where as many bytes are printed as can be kept, nothing of what was printed before is left. -/
theorem appendStdout_of_le {data : List UInt8} (many : stdoutCapacity ≤ data.length) :
    m.Shows (m.appendStdout data) (newest stdoutCapacity (m.stdout ++ data)) := by
  have shown : (newest stdoutCapacity data).length = stdoutCapacity := by
    rw [length_newest, Nat.min_eq_left many]
  rw [newest_append_of_le many, appendStdout, if_pos many]
  refine shows_setWord (m.within_buffer (Nat.le_refl _) ?_) ?_ (Nat.le_refl _)
  · exact Nat.add_le_add_left (Nat.le_of_eq shown) _
  have written : (m.setBytes Layout.stdout (newest stdoutCapacity data)).bytesAt Layout.stdout
      (newest stdoutCapacity data).length = newest stdoutCapacity data :=
    m.bytesAt_setBytes_self _ (by rw [shown]; decide)
  rwa [shown] at written

/-- Fewer bytes are put behind those that are not shifted out. -/
theorem appendStdout_of_lt {data : List UInt8} (few : data.length < stdoutCapacity) :
    m.Shows (m.appendStdout data) (newest stdoutCapacity (m.stdout ++ data)) := by
  have used := m.stdoutUsed_le
  have room : Layout.stdout + stdoutCapacity ≤ size := by decide
  rw [appendStdout, if_neg (Nat.not_le_of_lt few)]
  dsimp only
  generalize split : m.stdoutUsed + data.length - stdoutCapacity = overflow
  have shown : newest stdoutCapacity (m.stdout ++ data) = m.stdout.drop overflow ++ data := by
    rw [newest, List.length_append, length_stdout, split,
      List.drop_append_of_le_length (by rw [length_stdout]; omega)]
  have shifted : Within stdoutFields m (if 0 < overflow then m.shiftStdout overflow else m) ∧
      (if 0 < overflow then m.shiftStdout overflow else m).bytesAt Layout.stdout
        (m.stdoutUsed - overflow) = m.stdout.drop overflow := by
    by_cases some : 0 < overflow
    · rw [if_pos some]
      exact ⟨m.within_shiftStdout overflow, m.bytesAt_shiftStdout (by omega)⟩
    · obtain rfl : overflow = 0 := by omega
      exact ⟨.refl m, rfl⟩
  generalize (if 0 < overflow then m.shiftStdout overflow else m) = m' at shifted ⊢
  obtain ⟨within, kept⟩ := shifted
  rw [shown, ← kept]
  exact shows_setWord (within.trans (m'.within_buffer (by omega) (by omega)))
    (m'.bytesAt_setBytes_behind _ (by omega)) (by omega)

theorem shows_appendStdout (data : List UInt8) :
    m.Shows (m.appendStdout data) (newest stdoutCapacity (m.stdout ++ data)) := by
  by_cases many : stdoutCapacity ≤ data.length
  · exact m.appendStdout_of_le many
  · exact m.appendStdout_of_lt (Nat.lt_of_not_le many)

/-- Whatever memory holds, the word that counts the printed bytes included, after printing the last 256 bytes of what
was shown before and what is printed are shown, their number is in that word, and no byte outside of the
buffer and the word has changed. So printing twice shows what printing both at once does. -/
theorem stdout_keeps_the_newest (data : List UInt8) :
    (m.appendStdout data).stdout = newest 256 (m.stdout ++ data) ∧
      ((m.appendStdout data).wordAt stdoutLength).toNat = (newest 256 (m.stdout ++ data)).length ∧
      Within [⟨Layout.stdout, 256⟩, ⟨stdoutLength, 4⟩] m (m.appendStdout data) ∧
      ∀ more, ((m.appendStdout data).appendStdout more).stdout = (m.appendStdout (data ++ more)).stdout := by
  have printed := m.shows_appendStdout data
  refine ⟨printed.stdout, printed.count, printed.within, fun more => ?_⟩
  rw [(shows_appendStdout _ more).stdout, (shows_appendStdout _ (data ++ more)).stdout, printed.stdout,
    newest_newest_append, List.append_assoc]

end Memory

end RobotArena
