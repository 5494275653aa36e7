import Mathlib.Algebra.Group.Nat.Defs
import StockFlow.Proofs.Characters
import StockFlow.Text.Utf8

/-! What the reader of bytes does, said without it. An unfinished character stands for the code
points that it can still become, and this is what each step keeps. So texts written in UTF-8 are
read back, and of all other bytes each longest start of a character, or else one byte, is replaced.
A zero byte is read as the zero character and is the only one that is, also where it cuts a
character short. -/
namespace StockFlow.Text

namespace Utf8

/-! ### The code points of an unfinished character -/

/-- The character can still become `n`: the bytes it lacks, the next one within its bounds, spell
out the lower bits of `n`. -/
def Pending.Reaches (p : Pending) (n : Nat) : Prop :=
  p.bits * 64 + p.low ≤ n / 64 ^ (p.missing - 1) + 0x80 ∧
    n / 64 ^ (p.missing - 1) + 0x80 ≤ p.bits * 64 + p.high

/-- Only bytes that go on with a character are taken, and each code point that can still be reached
is that of a character of two bytes or more. -/
structure Pending.Sound (p : Pending) : Prop where
  missing : 1 ≤ p.missing
  low : 0x80 ≤ p.low
  high : p.high ≤ 0xBF
  ordered : p.low ≤ p.high
  code : ∀ n, p.Reaches n → 0x80 ≤ n ∧ n.isValidChar

theorem sound_of_begin? {b : Nat} {p : Pending} (h : begin? b = some p) : p.Sound := by
  simp only [begin?] at h
  split_ifs at h <;> obtain rfl := Option.some.inj h <;>
    refine ⟨by simp, by simp, by simp, by simp, fun n hn => ?_⟩ <;>
    simp only [Pending.Reaches, Nat.reduceSub, Nat.reducePow, Nat.reduceMul] at hn <;>
    simp only [Nat.isValidChar] <;> omega

theorem le_of_begin? {b : Nat} {p : Pending} (h : begin? b = some p) : 0x80 ≤ b := by
  simp only [begin?] at h
  split_ifs at h <;> omega

theorem start_of_begin? {b : Nat} {p : Pending} (h : begin? b = some p) :
    start b = ([], some p) := by
  simp only [start, if_neg (Nat.not_lt.2 (le_of_begin? h)), h]

/-- After a byte within the bounds. -/
def Pending.next (p : Pending) (b : Nat) : Pending :=
  ⟨p.bits * 64 + (b - 0x80), p.missing - 1, 0x80, 0xBF⟩

section Next
variable (p : Pending) (b : Nat)

@[simp] theorem Pending.next_bits : (p.next b).bits = p.bits * 64 + (b - 0x80) := rfl
@[simp] theorem Pending.next_missing : (p.next b).missing = p.missing - 1 := rfl
@[simp] theorem Pending.next_low : (p.next b).low = 0x80 := rfl
@[simp] theorem Pending.next_high : (p.next b).high = 0xBF := rfl

end Next

/-- What is in reach after a byte has the bits of that byte. -/
theorem Pending.Reaches.bits {p : Pending} {b k n : Nat} (hk : p.missing = k + 2)
    (h : (p.next b).Reaches n) : n / 64 ^ (k + 1) = (p.next b).bits := by
  obtain ⟨hleast, hmost⟩ := h
  rw [Nat.pow_succ, ← Nat.div_div_eq_div_mul]
  simp only [next_missing, next_low, next_high, hk, Nat.reduceSubDiff] at hleast hmost
  omega

/-- A byte within the bounds narrows what can be reached. -/
theorem Pending.Reaches.of_next {p : Pending} {b n : Nat} (hp : p.Sound) (hm : 2 ≤ p.missing)
    (hl : p.low ≤ b) (hh : b ≤ p.high) (h : (p.next b).Reaches n) : p.Reaches n := by
  have hlow := hp.low
  obtain ⟨k, hk⟩ : ∃ k, p.missing = k + 2 := ⟨p.missing - 2, by omega⟩
  have hbits := h.bits hk
  simp only [Pending.Reaches, hk, Nat.reduceSubDiff, hbits, p.next_bits]
  omega

theorem Pending.Sound.next {p : Pending} {b : Nat} (h : p.Sound) (hm : 2 ≤ p.missing)
    (hl : p.low ≤ b) (hh : b ≤ p.high) : (p.next b).Sound :=
  ⟨by rw [next_missing]; omega, by rw [next_low], by rw [next_high], by simp,
    fun n hn => h.code n (hn.of_next h hm hl hh)⟩

/-! ### Steps of the reader -/

/-- What one byte does to an unfinished character: it ends it, goes on with it, or does not belong
to it and is read as if nothing stood before it. -/
theorem step_cases {p : Pending} (b : Nat) (h : p.Sound) :
    ((p.low ≤ b ∧ b ≤ p.high) ∧ p.missing = 1 ∧ p.Reaches (p.next b).bits ∧
      step (some p) b = ([Char.ofNat (p.next b).bits], none)) ∨
    ((p.low ≤ b ∧ b ≤ p.high) ∧ 2 ≤ p.missing ∧ step (some p) b = ([], some (p.next b))) ∨
    (b < p.low ∨ p.high < b) ∧ step (some p) b = (replacement :: (start b).1, (start b).2) := by
  have hm := h.missing
  have hlow := h.low
  by_cases hb : p.low ≤ b ∧ b ≤ p.high
  · by_cases hone : p.missing = 1
    · refine .inl ⟨hb, hone, ?_, by simp [step, hb, hone]⟩
      simp only [Pending.Reaches, hone, p.next_bits, Nat.sub_self, Nat.pow_zero, Nat.div_one]
      omega
    · refine .inr (.inl ⟨hb, by omega, ?_⟩)
      rw [step, if_pos hb, if_neg hone]
      rfl
  · exact .inr (.inr ⟨by omega, by simp [step, hb]⟩)

/-! ### Texts written in UTF-8 -/

/-- The byte that holds the bits of `n` above its lowest `k` groups of six. -/
def tail (k n : Nat) : Nat := n / 64 ^ k % 64 + 0x80

/-- The last `k` bytes of a longer character with code point `n`. -/
def tails : Nat → Nat → List UInt8
  | 0, _ => []
  | k + 1, n => UInt8.ofNat (tail k n) :: tails k n

theorem toNat_tail (k n : Nat) : (UInt8.ofNat (tail k n)).toNat = tail k n :=
  UInt8.toNat_ofNat_of_lt' (show n / 64 ^ k % 64 + 0x80 < 256 by omega)

/-- The next byte of a code point that can be reached is within the bounds and adds its bits. -/
theorem Pending.Reaches.tail {p : Pending} {k n : Nat} (hk : p.missing = k + 1) (h : p.Sound)
    (hn : p.Reaches n) : (p.low ≤ tail k n ∧ tail k n ≤ p.high) ∧
      (p.next (tail k n)).bits = n / 64 ^ k := by
  obtain ⟨hleast, hmost⟩ := hn
  have hlow := h.low
  have hhigh := h.high
  simp only [hk, Nat.add_sub_cancel] at hleast hmost
  simp only [p.next_bits, Utf8.tail]
  omega

/-- The code point stays in reach when its next byte is taken. -/
theorem Pending.Reaches.next {p : Pending} {k n : Nat} (hk : p.missing = k + 2) (h : p.Sound)
    (hn : p.Reaches n) : (p.next (Utf8.tail (k + 1) n)).Reaches n := by
  have hbits := (hn.tail hk h).2
  rw [Nat.pow_succ, ← Nat.div_div_eq_div_mul] at hbits
  simp only [Pending.Reaches, hbits, p.next_missing, p.next_low, p.next_high, hk, Nat.reduceSubDiff]
  omega

/-- The bytes that are lacking finish the character. -/
theorem run_tails {p : Pending} {n : Nat} (h : p.Sound) (hn : p.Reaches n) (rest : List UInt8) :
    run (some p) (tails p.missing n ++ rest) = Char.ofNat n :: run none rest := by
  obtain ⟨k, hk⟩ : ∃ k, p.missing = k + 1 := ⟨p.missing - 1, by have := h.missing; omega⟩
  induction k generalizing p with
  | zero =>
    obtain ⟨hb, hbits⟩ := hn.tail hk h
    have hs : step (some p) (tail 0 n) = ([Char.ofNat n], none) := by
      rw [step, if_pos hb, if_pos hk]
      simpa using congrArg Char.ofNat hbits
    simp only [hk, tails, List.cons_append, List.nil_append, run, toNat_tail, hs]
  | succ k ih =>
    obtain ⟨hb, -⟩ := hn.tail hk h
    have hs : step (some p) (tail (k + 1) n) = ([], some (p.next (tail (k + 1) n))) := by
      rw [step, if_pos hb, if_neg (by omega)]
      rfl
    have hm : (p.next (tail (k + 1) n)).missing = k + 1 := by rw [p.next_missing]; omega
    have hrun := ih (h.next (by omega) hb.1 hb.2) (hn.next hk h) hm
    rw [hm] at hrun
    rw [hk, tails, List.cons_append, run, toNat_tail, hs, List.nil_append, hrun]

/-- The first byte of a character with `k` bytes after it. -/
def lead (k n : Nat) : Nat := n / 64 ^ k % 2 ^ (6 - k) + (0x100 - 2 ^ (7 - k))

/-- The code points of the characters with `k` bytes after their first. -/
def Takes (k n : Nat) : Prop :=
  k = 1 ∧ 0x80 ≤ n ∧ n ≤ 0x7FF ∨ k = 2 ∧ 0x800 ≤ n ∧ n ≤ 0xFFFF ∨ k = 3 ∧ 0x10000 ≤ n

theorem lead_lt {k n : Nat} (h : Takes k n) : lead k n < 0x100 := by
  obtain ⟨rfl, -, -⟩ | ⟨rfl, -, -⟩ | ⟨rfl, -⟩ := h <;>
    simp only [lead, Nat.reduceSub, Nat.reducePow] <;> omega

/-- The first byte leaves the others lacking, in bounds that keep the character in reach. -/
theorem begin?_lead {k n : Nat} (h : Takes k n) (hv : n.isValidChar) :
    ∃ p, begin? (lead k n) = some p ∧ p.missing = k ∧ p.Reaches n := by
  unfold Nat.isValidChar at hv
  obtain ⟨rfl, hl, hh⟩ | ⟨rfl, hl, hh⟩ | ⟨rfl, hl⟩ := h <;>
    simp only [lead, Nat.reduceSub, Nat.reducePow] <;> unfold begin? <;> split_ifs <;>
    first
      | omega
      | exact ⟨_, rfl, rfl, by simp only [Pending.Reaches]; omega⟩

theorem exists_takes {c : Char} (h : 0x80 ≤ c.toNat) : ∃ k, Takes k c.toNat ∧
    String.utf8EncodeChar c = UInt8.ofNat (lead k c.toNat) :: tails k c.toNat := by
  have hc : c.val.toNat = c.toNat := rfl
  simp only [String.utf8EncodeChar, hc]
  rw [if_neg (by omega)]
  split_ifs with h2 h3
  · exact ⟨1, .inl ⟨rfl, h, h2⟩, by simp [lead, tails, tail]⟩
  · exact ⟨2, .inr (.inl ⟨rfl, by omega, h3⟩), by simp [lead, tails, tail]⟩
  · exact ⟨3, .inr (.inr ⟨rfl, by omega⟩), by simp [lead, tails, tail]⟩

theorem utf8EncodeChar_ascii {c : Char} (h : c.toNat < 0x80) :
    String.utf8EncodeChar c = [UInt8.ofNat c.toNat] :=
  if_pos (Nat.le_of_lt_succ h)

theorem exists_begin {c : Char} (h : 0x80 ≤ c.toNat) : ∃ (b : UInt8) (p : Pending),
    begin? b.toNat = some p ∧ p.Reaches c.toNat ∧
      String.utf8EncodeChar c = b :: tails p.missing c.toNat := by
  obtain ⟨k, hk, he⟩ := exists_takes h
  obtain ⟨p, hp, rfl, hr⟩ := begin?_lead hk c.valid
  refine ⟨_, p, ?_, hr, he⟩
  rwa [UInt8.toNat_ofNat_of_lt' (lead_lt hk)]

/-- The bytes of a character are read as that character, whatever follows them. -/
theorem run_utf8EncodeChar (c : Char) (rest : List UInt8) :
    run none (String.utf8EncodeChar c ++ rest) = c :: run none rest := by
  by_cases h : c.toNat < 0x80
  · have hb : (UInt8.ofNat c.toNat).toNat = c.toNat :=
      UInt8.toNat_ofNat_of_lt' (show c.toNat < 256 by omega)
    simp [utf8EncodeChar_ascii h, run, step, start, hb, h]
  · obtain ⟨b, p, hp, hr, he⟩ := exists_begin (Nat.le_of_not_lt h)
    rw [he, List.cons_append, run, step, start_of_begin? hp, List.nil_append,
      run_tails (sound_of_begin? hp) hr, Char.ofNat_toNat]

/-- The bytes of one character are never the start of the bytes of another. -/
theorem utf8EncodeChar_append_inj {c d : Char} {s t : List UInt8}
    (h : String.utf8EncodeChar c ++ s = String.utf8EncodeChar d ++ t) : c = d ∧ s = t := by
  have hrun := congrArg (run none) h
  rw [run_utf8EncodeChar, run_utf8EncodeChar] at hrun
  obtain ⟨rfl, -⟩ := List.cons.inj hrun
  exact ⟨rfl, List.append_cancel_left h⟩

theorem Takes.unique {k k' n : Nat} (h : Takes k n) (h' : Takes k' n) : k = k' := by
  unfold Takes at h h'
  omega

/-- Only the code points in reach have such a first byte. -/
theorem takes_of_begin? {b n : Nat} {p : Pending} (h : begin? b = some p) (hn : p.Reaches n) :
    Takes p.missing n ∧ lead p.missing n = b := by
  simp only [begin?] at h
  split_ifs at h <;> obtain rfl := Option.some.inj h <;>
    simp only [Pending.Reaches, Nat.reduceSub, Nat.reducePow, Nat.reduceMul] at hn <;>
    simp only [Takes, lead, Nat.reduceSub, Nat.reducePow, true_and] <;> omega

/-! ### What an unfinished character stands for -/

/-- The bytes are the start of a character's bytes, or all of them. -/
def Begins (bytes : List UInt8) : Prop := ∃ c, bytes <+: String.utf8EncodeChar c

/-- The state after these bytes: the characters in reach are those whose bytes start so, and it is
their other bytes that lack. -/
structure Pending.After (p : Pending) (bytes : List UInt8) : Prop where
  sound : p.Sound
  reaches : ∀ c : Char, bytes <+: String.utf8EncodeChar c → p.Reaches c.toNat
  encoded : ∀ c : Char, p.Reaches c.toNat →
    String.utf8EncodeChar c = bytes ++ tails p.missing c.toNat

theorem Pending.Sound.exists_reaches {p : Pending} (h : p.Sound) :
    ∃ c : Char, p.Reaches c.toNat := by
  have hlow := h.low
  have hordered := h.ordered
  have hn : p.Reaches ((p.bits * 64 + (p.low - 0x80)) * 64 ^ (p.missing - 1)) := by
    rw [Pending.Reaches, Nat.mul_div_cancel _ (Nat.pow_pos (by decide))]
    omega
  exact ⟨Char.ofNat _, by rwa [Unicode.toNat_ofNat (h.code _ hn).2]⟩

theorem cases_of_head {b : UInt8} {c : Char} (h : [b] <+: String.utf8EncodeChar c) :
    String.utf8EncodeChar c = [b] ∧ b.toNat < 0x80 ∨ ∃ p, begin? b.toNat = some p ∧
      p.Reaches c.toNat ∧ String.utf8EncodeChar c = b :: tails p.missing c.toNat := by
  by_cases hc : c.toNat < 0x80
  · have he := utf8EncodeChar_ascii hc
    rw [he] at h ⊢
    obtain rfl : b = UInt8.ofNat c.toNat := (List.cons_prefix_cons.1 h).1
    refine .inl ⟨rfl, ?_⟩
    rwa [UInt8.toNat_ofNat_of_lt' (show c.toNat < 256 by omega)]
  · obtain ⟨b', p, hp, hr, he⟩ := exists_begin (Nat.le_of_not_lt hc)
    rw [he] at h
    obtain rfl : b = b' := (List.cons_prefix_cons.1 h).1
    exact .inr ⟨p, hp, hr, he⟩

theorem Pending.After.first {b : UInt8} {p : Pending} (h : begin? b.toNat = some p) :
    p.After [b] := by
  have hsound := sound_of_begin? h
  refine ⟨hsound, fun c hc => ?_, fun c hc => ?_⟩
  · obtain ⟨-, hlt⟩ | ⟨q, hq, hr, -⟩ := cases_of_head hc
    · exact absurd (le_of_begin? h) (Nat.not_le.2 hlt)
    · obtain rfl := Option.some.inj (h.symm.trans hq)
      exact hr
  · obtain ⟨b', q, hq, hr, he⟩ := exists_begin (hsound.code _ hc).1
    obtain ⟨htakes, hlead⟩ := takes_of_begin? h hc
    obtain ⟨htakes', hlead'⟩ := takes_of_begin? hq hr
    rw [htakes'.unique htakes, hlead] at hlead'
    obtain rfl := UInt8.toNat_inj.1 hlead'
    obtain rfl := Option.some.inj (h.symm.trans hq)
    exact he

/-- One byte more leaves the characters that have it as their next. -/
theorem Pending.After.append_iff {p : Pending} {bytes : List UInt8} {b : UInt8} {c : Char} {k : Nat}
    (h : p.After bytes) (hk : p.missing = k + 1) :
    bytes ++ [b] <+: String.utf8EncodeChar c ↔ p.Reaches c.toNat ∧ Utf8.tail k c.toNat = b.toNat := by
  have hnext (hr : p.Reaches c.toNat) : bytes ++ [b] <+: String.utf8EncodeChar c ↔
      Utf8.tail k c.toNat = b.toNat := by
    rw [h.encoded c hr, hk, tails, List.prefix_append_right_inj, List.cons_prefix_cons,
      ← UInt8.toNat_inj, toNat_tail]
    simp [eq_comm]
  constructor
  · intro hpre
    have hr := h.reaches c ((List.prefix_append bytes [b]).trans hpre)
    exact ⟨hr, (hnext hr).1 hpre⟩
  · exact fun ⟨hr, ht⟩ => (hnext hr).2 ht

theorem Pending.After.next {p : Pending} {bytes : List UInt8} {b : UInt8} (h : p.After bytes)
    (hm : 2 ≤ p.missing) (hl : p.low ≤ b.toNat) (hh : b.toNat ≤ p.high) :
    (p.next b.toNat).After (bytes ++ [b]) := by
  obtain ⟨k, hk⟩ : ∃ k, p.missing = k + 2 := ⟨p.missing - 2, by omega⟩
  have hm' : (p.next b.toNat).missing = k + 1 := by rw [p.next_missing]; omega
  refine ⟨h.sound.next hm hl hh, fun c hc => ?_, fun c hc => ?_⟩
  · obtain ⟨hr, ht⟩ := (h.append_iff hk).1 hc
    exact ht ▸ hr.next hk h.sound
  · have hr := hc.of_next h.sound hm hl hh
    have ht : Utf8.tail (k + 1) c.toNat = b.toNat := by
      have hbits := hc.bits hk
      have hlow := h.sound.low
      have hhigh := h.sound.high
      rw [p.next_bits] at hbits
      rw [Utf8.tail, hbits]
      omega
    have hb : UInt8.ofNat (Utf8.tail (k + 1) c.toNat) = b := by rw [ht, UInt8.ofNat_toNat]
    rw [h.encoded c hr, hk, hm', tails, hb, List.append_assoc]
    rfl

/-- The last byte that lacks ends the bytes of a character. -/
theorem Pending.After.last {p : Pending} {bytes : List UInt8} {b : UInt8} (h : p.After bytes)
    (hm : p.missing = 1) (hr : p.Reaches (p.next b.toNat).bits) (hl : p.low ≤ b.toNat)
    (hh : b.toNat ≤ p.high) :
    String.utf8EncodeChar (Char.ofNat (p.next b.toNat).bits) = bytes ++ [b] := by
  have hcode := Unicode.toNat_ofNat (h.sound.code _ hr).2
  have ht : Utf8.tail 0 (p.next b.toNat).bits = b.toNat := by
    have hlow := h.sound.low
    have hhigh := h.sound.high
    simp only [Utf8.tail, p.next_bits, Nat.pow_zero, Nat.div_one]
    omega
  rw [h.encoded _ (by rwa [hcode]), hcode, hm, tails, tails, ht, UInt8.ofNat_toNat]

/-! ### What is read and what is replaced -/

/-- The rest of the bytes begins with no character, and `part` is the longest start of it that
begins one, or else its first byte. -/
structure IsMaximal (part rest : List UInt8) : Prop where
  ne_nil : part ≠ []
  begins : part.length = 1 ∨ Begins part
  longest : ∀ longer, longer <+: part ++ rest → Begins longer → longer.length ≤ part.length
  incomplete : ∀ c, ¬ String.utf8EncodeChar c <+: part ++ rest

/-- The text that bytes are read as: characters where their bytes stand, and one replacement
character for each longest part that is no character. -/
inductive Lossy : List UInt8 → Text → Prop where
  | nil : Lossy [] []
  | char {c rest t} : Lossy rest t → Lossy (String.utf8EncodeChar c ++ rest) (c :: t)
  | replaced {part rest t} : IsMaximal part rest → Lossy rest t →
      Lossy (part ++ rest) ('\uFFFD' :: t)

/-- A byte that begins no character is replaced alone. -/
theorem isMaximal_singleton {b : UInt8} (h : ¬ Begins [b]) (rest : List UInt8) :
    IsMaximal [b] rest := by
  have hstart {longer : List UInt8} (hpre : longer <+: [b] ++ rest) (hne : longer ≠ []) :
      [b] <+: longer := by
    obtain ⟨d, longer, rfl⟩ := List.exists_cons_of_ne_nil hne
    obtain rfl := (List.cons_prefix_cons.1 hpre).1
    simp
  refine ⟨by simp, .inl rfl, fun longer hpre hbegins => ?_, fun c hpre => ?_⟩
  · obtain ⟨c, hc⟩ := hbegins
    by_contra hlen
    exact h ⟨c, (hstart hpre (by rintro rfl; simp at hlen)).trans hc⟩
  · exact h ⟨c, hstart hpre String.utf8EncodeChar_ne_nil⟩

/-- The bytes of an unfinished character are replaced together when the next byte, if any, does not
go on with it. -/
theorem Pending.After.isMaximal {p : Pending} {bytes rest : List UInt8} (h : p.After bytes)
    (hout : ∀ b ∈ rest.head?, b.toNat < p.low ∨ p.high < b.toNat) : IsMaximal bytes rest := by
  obtain ⟨k, hk⟩ : ∃ k, p.missing = k + 1 := ⟨p.missing - 1, by have := h.sound.missing; omega⟩
  obtain ⟨c₀, hr₀⟩ := h.sound.exists_reaches
  have hlongest {longer : List UInt8} (hpre : longer <+: bytes ++ rest) (hbegins : Begins longer) :
      longer.length ≤ bytes.length := by
    obtain ⟨c, hc⟩ := hbegins
    by_contra hlen
    obtain ⟨more, rfl⟩ := List.prefix_of_prefix_length_le (List.prefix_append bytes rest) hpre
      (by omega)
    cases more with
    | nil => simp at hlen
    | cons b more =>
      obtain ⟨after, hafter⟩ := (List.prefix_append_right_inj bytes).1 hpre
      have hstart : bytes ++ [b] <+: bytes ++ b :: more := by simp
      obtain ⟨hr, ht⟩ := (h.append_iff hk).1 (hstart.trans hc)
      have hin := (hr.tail hk h.sound).1
      rw [ht] at hin
      have := hout b (by rw [← hafter]; rfl)
      omega
  refine ⟨?_, .inr ⟨c₀, ?_⟩, fun longer => hlongest, fun c hc => ?_⟩
  · rintro rfl
    have hcode := (h.sound.code _ (h.reaches 'a' (by simp))).1
    exact absurd hcode (by decide)
  · rw [h.encoded c₀ hr₀]
    exact List.prefix_append _ _
  · have hlen := hlongest hc ⟨c, List.prefix_refl _⟩
    obtain ⟨s, hs⟩ := List.prefix_of_prefix_length_le hc (List.prefix_append bytes rest) hlen
    have heq : String.utf8EncodeChar c ++ (s ++ tails p.missing c₀.toNat) =
        String.utf8EncodeChar c₀ ++ [] := by
      rw [h.encoded c₀ hr₀, ← hs, List.append_nil, List.append_assoc]
    have hnil := (utf8EncodeChar_append_inj heq).2
    simp [hk, tails] at hnil

/-- The reader reads as it should, and also inside a character, with what it has taken of it. -/
theorem lossy_run (bytes : List UInt8) : Lossy bytes (run none bytes) ∧
    ∀ p before, p.After before → Lossy (before ++ bytes) (run (some p) bytes) := by
  induction bytes with
  | nil => exact ⟨.nil, fun p before h => .replaced (h.isMaximal (by simp)) .nil⟩
  | cons b rest ih =>
    obtain ⟨hnone, hsome⟩ := ih
    have hstart : Lossy (b :: rest) (run none (b :: rest)) := by
      by_cases hlt : b.toNat < 0x80
      · have hcode : (Char.ofNat b.toNat).toNat = b.toNat := Unicode.toNat_ofNat (.inl (by omega))
        have hbytes : String.utf8EncodeChar (Char.ofNat b.toNat) = [b] := by
          rw [utf8EncodeChar_ascii (by omega), hcode, UInt8.ofNat_toNat]
        rw [run, step, start, if_pos hlt, ← List.singleton_append, ← hbytes]
        exact .char hnone
      · cases hb : begin? b.toNat with
        | some p =>
          rw [run, step, start_of_begin? hb]
          exact hsome p [b] (.first hb)
        | none =>
          have hs : start b.toNat = ([replacement], none) := by simp [start, hlt, hb]
          rw [run, step, hs]
          refine .replaced (isMaximal_singleton (fun ⟨c, hc⟩ => ?_) rest) hnone
          obtain ⟨-, hascii⟩ | ⟨p, hp, -⟩ := cases_of_head hc
          · exact hlt hascii
          · exact nomatch hb.symm.trans hp
    refine ⟨hstart, fun p before h => ?_⟩
    obtain ⟨hb, hm, hr, hs⟩ | ⟨hb, hm, hs⟩ | ⟨hb, hs⟩ := step_cases b.toNat h.sound
    · rw [run, hs, List.append_cons, ← h.last hm hr hb.1 hb.2]
      exact .char hnone
    · rw [run, hs, List.append_cons]
      exact hsome _ _ (h.next hm hb.1 hb.2)
    · rw [run, hs]
      exact .replaced (h.isMaximal (by simpa using hb)) hstart

theorem IsMaximal.unique {part rest part' rest' : List UInt8} (h : IsMaximal part rest)
    (h' : IsMaximal part' rest') (heq : part ++ rest = part' ++ rest') :
    part = part' ∧ rest = rest' := by
  have hle {part rest part' rest' : List UInt8} (h : IsMaximal part rest)
      (h' : IsMaximal part' rest') (heq : part ++ rest = part' ++ rest') :
      part'.length ≤ part.length := by
    rcases h'.begins with hone | hbegins
    · rw [hone]
      exact List.length_pos_iff.2 h.ne_nil
    · exact h.longest part' (heq ▸ List.prefix_append part' rest') hbegins
  exact List.append_inj heq (Nat.le_antisymm (hle h' h heq.symm) (hle h h' heq))

/-- The bytes tell which text they are read as. -/
theorem Lossy.unique {bytes : List UInt8} {s t : Text} (hs : Lossy bytes s) (ht : Lossy bytes t) :
    s = t := by
  induction hs generalizing t with
  | nil =>
    generalize hbytes : [] = bytes at ht
    cases ht with
    | nil => rfl
    | char => simp at hbytes
    | replaced h => simp [h.ne_nil] at hbytes
  | @char c rest s hs ih =>
    generalize hbytes : String.utf8EncodeChar c ++ rest = bytes at ht
    cases ht with
    | nil => simp at hbytes
    | char ht =>
      obtain ⟨rfl, rfl⟩ := utf8EncodeChar_append_inj hbytes
      rw [ih ht]
    | replaced h ht => exact absurd (hbytes ▸ List.prefix_append _ _) (h.incomplete c)
  | @replaced part rest s h hs ih =>
    generalize hbytes : part ++ rest = bytes at ht
    cases ht with
    | nil => simp [h.ne_nil] at hbytes
    | @char c => exact absurd (hbytes ▸ List.prefix_append _ _) (h.incomplete c)
    | replaced h' ht =>
      obtain ⟨rfl, rfl⟩ := h.unique h' hbytes
      rw [ih ht]

/-! ### Zero bytes -/

theorem le_of_mem_tails {b : UInt8} {k n : Nat} (h : b ∈ tails k n) : 0x80 ≤ b.toNat := by
  induction k with
  | zero => simp [tails] at h
  | succ k ih =>
    rcases List.mem_cons.1 h with rfl | h
    · rw [toNat_tail]
      exact Nat.le_add_left _ _
    · exact ih h

/-- A zero byte is a character of its own, and no part of another. -/
theorem eq_of_zero_mem {c : Char} (h : 0 ∈ String.utf8EncodeChar c) : c = '\x00' := by
  by_cases hc : c.toNat < 0x80
  · rw [utf8EncodeChar_ascii hc, List.mem_singleton] at h
    have hzero := congrArg UInt8.toNat h
    rw [UInt8.toNat_ofNat_of_lt' (show c.toNat < 256 by omega)] at hzero
    exact Char.toNat_inj.1 hzero.symm
  · obtain ⟨b, p, hp, -, he⟩ := exists_begin (Nat.le_of_not_lt hc)
    rw [he] at h
    rcases List.mem_cons.1 h with rfl | h
    · exact absurd (le_of_begin? hp) (by decide)
    · exact absurd (le_of_mem_tails h) (by decide)

theorem IsMaximal.append_zero {part rest : List UInt8} (h : IsMaximal part rest)
    (after : List UInt8) : IsMaximal part (rest ++ 0 :: after) := by
  have hwithin {longer : List UInt8} (hpre : longer <+: part ++ (rest ++ 0 :: after))
      (hbegins : Begins longer) : longer <+: part ++ rest := by
    obtain ⟨c, hc⟩ := hbegins
    rw [← List.append_assoc] at hpre
    obtain hin | ⟨more, rfl⟩ :=
      List.prefix_or_prefix_of_prefix hpre (List.prefix_append (part ++ rest) _)
    · exact hin
    · cases more with
      | nil => simp
      | cons b more =>
        obtain rfl := (List.cons_prefix_cons.1 ((List.prefix_append_right_inj _).1 hpre)).1
        obtain rfl := eq_of_zero_mem (hc.subset (List.mem_append_right _ (.head _)))
        have hpart := List.length_pos_iff.2 h.ne_nil
        have hlength : (part ++ rest ++ 0 :: more).length ≤ 1 := hc.length_le
        simp only [List.length_append, List.length_cons] at hlength
        omega
  refine ⟨h.ne_nil, h.begins, fun longer hpre hbegins => ?_, fun c hc => ?_⟩
  · exact h.longest longer (hwithin hpre hbegins) hbegins
  · exact h.incomplete c (hwithin hc ⟨c, List.prefix_refl _⟩)

theorem Lossy.append_zero {before after : List UInt8} {s t : Text} (hs : Lossy before s)
    (ht : Lossy after t) : Lossy (before ++ 0 :: after) (s ++ '\x00' :: t) := by
  induction hs with
  | nil => exact .char (c := '\x00') ht
  | char _ ih =>
    rw [List.append_assoc]
    exact .char ih
  | replaced h _ ih =>
    rw [List.append_assoc]
    exact .replaced (h.append_zero after) ih

theorem Lossy.not_mem {bytes : List UInt8} {t : Text} (h : Lossy bytes t) (hz : 0 ∉ bytes) :
    '\x00' ∉ t := by
  induction h with
  | nil => simp
  | @char c rest t _ ih =>
    rw [List.mem_append, not_or] at hz
    rw [List.mem_cons, not_or]
    refine ⟨?_, ih hz.2⟩
    rintro rfl
    exact hz.1 (.head _)
  | replaced _ _ ih =>
    rw [List.mem_append, not_or] at hz
    simpa using ih hz.2

theorem Lossy.eq_nil_iff {bytes : List UInt8} {t : Text} (h : Lossy bytes t) :
    t = [] ↔ bytes = [] := by
  cases h with
  | nil => simp
  | char => simp
  | replaced h => simp [h.ne_nil]

end Utf8

/-! ### Whole texts -/

theorem lossy_ofBytes (bytes : List UInt8) : Utf8.Lossy bytes (ofBytes bytes) :=
  (Utf8.lossy_run bytes).1

theorem lossy_iff {bytes : List UInt8} {t : Text} : Utf8.Lossy bytes t ↔ t = ofBytes bytes :=
  ⟨fun h => h.unique (lossy_ofBytes bytes), fun h => h ▸ lossy_ofBytes bytes⟩

/-- A zero byte ends what is unfinished, and what follows it is read as if nothing stood before. -/
theorem ofBytes_append_zero (before after : List UInt8) :
    ofBytes (before ++ 0 :: after) = ofBytes before ++ '\x00' :: ofBytes after :=
  (lossy_iff.1 ((lossy_ofBytes before).append_zero (lossy_ofBytes after))).symm

/-- The bytes of a text in UTF-8. -/
def toUtf8 (t : Text) : List UInt8 := t.flatMap String.utf8EncodeChar

theorem ofBytes_toUtf8_append (t : Text) (rest : List UInt8) :
    ofBytes (toUtf8 t ++ rest) = t ++ ofBytes rest := by
  induction t with
  | nil => rfl
  | cons c t ih =>
    rw [toUtf8, List.flatMap_cons, List.append_assoc, ofBytes, Utf8.run_utf8EncodeChar]
    exact congrArg (c :: ·) ih

theorem ofBytes_replicate_append (n : Nat) (rest : List UInt8) :
    ofBytes (List.replicate n 0 ++ rest) = List.replicate n '\x00' ++ ofBytes rest := by
  induction n with
  | zero => rfl
  | succ n ih => exact congrArg ('\x00' :: ·) ih

end StockFlow.Text
