import RobotArena.Memory.Basic

/-!
# Blocks of bytes in memory

Blocks that are laid out one behind the other and written as one are found each at its own address.
What is written at some addresses leaves the bytes and words elsewhere as they are.
-/

namespace RobotArena

/-- Blocks with the addresses that they have when they stand one behind the other. -/
def layOut : Nat → List (List UInt8) → List (Nat × List UInt8)
  | _, [] => []
  | address, block :: rest => (address, block) :: layOut (address + block.length) rest

section LayOut

variable (address : Nat) (blocks : List (List UInt8))

theorem layOut_concat (block : List UInt8) :
    layOut address (blocks ++ [block]) =
      layOut address blocks ++ [(address + blocks.flatten.length, block)] := by
  induction blocks generalizing address with
  | nil => simp [layOut]
  | cons first rest ih =>
    rw [List.cons_append, layOut, ih]
    simp [layOut, Nat.add_assoc]

variable {address blocks}

theorem split_of_mem_layOut {x : Nat × List UInt8} (member : x ∈ layOut address blocks) :
    ∃ before behind, blocks = before ++ x.2 :: behind ∧ x.1 = address + before.flatten.length := by
  induction blocks generalizing address with
  | nil => cases member
  | cons block rest ih =>
    rcases List.mem_cons.mp member with rfl | later
    · exact ⟨[], rest, rfl, rfl⟩
    · obtain ⟨before, behind, split, place⟩ := ih later
      refine ⟨block :: before, behind, congrArg (block :: ·) split, ?_⟩
      rw [place, List.flatten_cons, List.length_append, Nat.add_assoc]

theorem le_of_mem_layOut {x : Nat × List UInt8} (member : x ∈ layOut address blocks) :
    address ≤ x.1 ∧ x.1 + x.2.length ≤ address + blocks.flatten.length := by
  obtain ⟨before, behind, rfl, place⟩ := split_of_mem_layOut member
  simp only [List.flatten_append, List.flatten_cons, List.length_append]
  omega

theorem layOut_disjoint :
    (layOut address blocks).Pairwise fun x y => x.1 + x.2.length ≤ y.1 := by
  induction blocks generalizing address with
  | nil => exact .nil
  | cons block rest ih => exact .cons (fun _ later => (le_of_mem_layOut later).1) ih

theorem dvd_of_mem_layOut {n : Nat} (whole : ∀ block ∈ blocks, n ∣ block.length)
    (start : n ∣ address) : ∀ x ∈ layOut address blocks, n ∣ x.1 := by
  induction blocks generalizing address with
  | nil => exact nofun
  | cons block rest ih =>
    intro x member
    rcases List.mem_cons.mp member with rfl | later
    · exact start
    · exact ih (fun other inside => whole other (List.mem_cons_of_mem _ inside))
        (Nat.dvd_add start (whole block List.mem_cons_self)) x later

theorem mem_layOut_of_between {i : Nat} (low : address ≤ i)
    (high : i < address + blocks.flatten.length) :
    ∃ x ∈ layOut address blocks, x.1 ≤ i ∧ i < x.1 + x.2.length := by
  induction blocks generalizing address with
  | nil =>
    simp only [List.flatten_nil, List.length_nil] at high
    omega
  | cons block rest ih =>
    by_cases here : i < address + block.length
    · exact ⟨_, List.mem_cons_self, low, here⟩
    · rw [List.flatten_cons, List.length_append] at high
      obtain ⟨x, member, inside⟩ := ih (Nat.le_of_not_lt here) (by omega)
      exact ⟨x, List.mem_cons_of_mem _ member, inside⟩

end LayOut

namespace Memory

variable (m : Memory) (address : Nat)

theorem setBytes_append (front back : List UInt8) :
    m.setBytes address (front ++ back) =
      (m.setBytes address front).setBytes (address + front.length) back := by
  induction front generalizing m address with
  | nil => rfl
  | cons b front ih =>
    rw [List.cons_append, setBytes, ih, setBytes, List.length_cons, Nat.add_right_comm,
      Nat.add_assoc]

theorem getElem?_bytesAt {n k : Nat} (inside : k < n) :
    (m.bytesAt address n)[k]? = some (m.byte (address + k)) := by
  induction n generalizing address k with
  | zero => cases inside
  | succ n ih =>
    cases k with
    | zero => rfl
    | succ k =>
      rw [bytesAt, List.getElem?_cons_succ, ih _ (Nat.lt_of_succ_lt_succ inside)]
      congr 2
      omega

theorem bytesAt_add (n k : Nat) :
    m.bytesAt address (n + k) = m.bytesAt address n ++ m.bytesAt (address + n) k := by
  induction n generalizing address with
  | zero => rw [Nat.zero_add, Nat.add_zero, bytesAt, List.nil_append]
  | succ n ih =>
    rw [Nat.succ_add, bytesAt, bytesAt, ih, List.cons_append, Nat.add_right_comm, Nat.add_assoc]

theorem bytesAt_congr {m m' : Memory} {n : Nat}
    (same : ∀ i, address ≤ i → i < address + n → m'.byte i = m.byte i) :
    m'.bytesAt address n = m.bytesAt address n := by
  induction n generalizing address with
  | zero => rfl
  | succ n ih =>
    rw [bytesAt, bytesAt, same address (by omega) (by omega),
      ih (address + 1) fun i low high => same i (by omega) (by omega)]

theorem bytesAt_setBytes {before block behind : List UInt8}
    (room : address + before.length + block.length ≤ size) :
    (m.setBytes address (before ++ (block ++ behind))).bytesAt (address + before.length)
      block.length = block := by
  apply List.ext_getElem?
  intro k
  by_cases inside : k < block.length
  · have low : address ≤ address + before.length + k := by omega
    have high : address + before.length + k < size := by omega
    have offset : address + before.length + k - address = before.length + k := by omega
    rw [getElem?_bytesAt _ _ inside, byte_setBytes, if_pos ⟨low, high⟩, offset,
      List.getElem?_append_right (Nat.le_add_right _ _), Nat.add_sub_cancel_left,
      List.getElem?_append_left inside, List.getElem?_eq_getElem inside]
    rfl
  · have past : block.length ≤ k := Nat.le_of_not_lt inside
    rw [List.getElem?_eq_none past, List.getElem?_eq_none (by rw [length_bytesAt]; exact past)]

theorem bytesAt_setBytes_self {bs : List UInt8} (room : address + bs.length ≤ size) :
    (m.setBytes address bs).bytesAt address bs.length = bs := by
  have block : (m.setBytes address ([] ++ (bs ++ []))).bytesAt (address + 0) bs.length = bs :=
    m.bytesAt_setBytes address room
  rwa [List.nil_append, List.append_nil] at block

theorem byte_setBytes_outside {i : Nat} {bs : List UInt8}
    (outside : i < address ∨ address + bs.length ≤ i) :
    (m.setBytes address bs).byte i = m.byte i := by
  rw [byte_setBytes]
  split
  · rename_i inside
    rw [List.getElem?_eq_none (by omega)]
    rfl
  · rfl

theorem bytesAt_setBytes_outside {i n : Nat} {bs : List UInt8}
    (outside : i + n ≤ address ∨ address + bs.length ≤ i) :
    (m.setBytes address bs).bytesAt i n = m.bytesAt i n :=
  bytesAt_congr i fun _ _ _ => byte_setBytes_outside m address (by omega)

theorem wordAt_congr {m m' : Memory} (same : ∀ i, address ≤ i → i < address + 4 → m'.byte i = m.byte i) :
    m'.wordAt address = m.wordAt address := by
  rw [wordAt, wordAt, same _ (by omega) (by omega), same _ (by omega) (by omega),
    same _ (by omega) (by omega), same _ (by omega) (by omega)]

theorem wordAt_setBytes_outside {i : Nat} {bs : List UInt8}
    (outside : i + 4 ≤ address ∨ address + bs.length ≤ i) :
    (m.setBytes address bs).wordAt i = m.wordAt i :=
  wordAt_congr i fun _ _ _ => byte_setBytes_outside m address (by omega)

theorem wordAt_setBytes_toBytes (w : UInt32) (room : address + 4 ≤ size) :
    (m.setBytes address (Word.toBytes w)).wordAt address = w := by
  have byte : ∀ k, k < 4 → (m.setBytes address (Word.toBytes w)).byte (address + k) =
      ((Word.toBytes w)[k]?).getD 0 := by
    intro k small
    have inside : k < (Word.toBytes w).length := by rw [Word.length_toBytes]; exact small
    rw [byte_setBytes, if_pos ⟨by omega, by omega⟩, Nat.add_sub_cancel_left,
      List.getElem?_eq_getElem inside]
    rfl
  have first := byte 0 (by omega)
  rw [Nat.add_zero] at first
  rw [wordAt, first, byte 1 (by omega), byte 2 (by omega), byte 3 (by omega)]
  exact Word.ofBytes_toUInt8 w

theorem wordAt_setBytes_within (before behind : List UInt8) (w : UInt32)
    (room : address + before.length + 4 ≤ size) :
    (m.setBytes address (before ++ (Word.toBytes w ++ behind))).wordAt (address + before.length) = w := by
  have past : address + before.length + 4 ≤ address + before.length + (Word.toBytes w).length := Nat.le_refl _
  rw [setBytes_append, setBytes_append, wordAt_setBytes_outside _ _ (.inl past)]
  exact wordAt_setBytes_toBytes _ _ _ room

/-- What blocks that are written as one leave in memory: each block at its address, and every other
byte as it was. -/
theorem setBytes_layOut {blocks : List (List UInt8)}
    (room : address + blocks.flatten.length ≤ size) :
    (∀ x ∈ layOut address blocks,
      (m.setBytes address blocks.flatten).bytesAt x.1 x.2.length = x.2) ∧
    ∀ i, (∀ x ∈ layOut address blocks, i < x.1 ∨ x.1 + x.2.length ≤ i) →
      (m.setBytes address blocks.flatten).byte i = m.byte i := by
  constructor
  · intro x member
    obtain ⟨before, behind, rfl, place⟩ := split_of_mem_layOut member
    rw [List.flatten_append, List.flatten_cons, List.length_append, List.length_append] at room
    rw [List.flatten_append, List.flatten_cons, place]
    exact m.bytesAt_setBytes address (by omega)
  · intro i outside
    have past : i < address ∨ address + blocks.flatten.length ≤ i := by
      by_cases low : i < address
      · exact .inl low
      · refine .inr (Nat.le_of_not_lt fun high => ?_)
        obtain ⟨x, member, here, there⟩ := mem_layOut_of_between (Nat.le_of_not_lt low) high
        rcases outside x member with before | behind <;> omega
    exact m.byte_setBytes_outside address past

end Memory

end RobotArena
