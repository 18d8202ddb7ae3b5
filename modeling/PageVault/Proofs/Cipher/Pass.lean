import PageVault.Proofs.Cipher.Chaining
import PageVault.Cipher.Rc4

/-!
# Chaining modes in place

The modes of `Chaining` build their result as a new string.  In place there is one buffer:
each piece is read from it, and written back before the next piece is read.  Such a way over
a buffer is a `Pass`.  Since a step replaces its piece by one of the same length, everything
behind it is still what was there before, and the pass leaves what a copy would give
(`Pass.sweep_eq_copied`); for each mode that is the string of `Chaining`.

§1 passes · §2 modes as passes.
-/

namespace PageVault

/-! ## §1  Passes -/

namespace Bytes

/-- The buffer with `piece` in the place of as many bytes at `offset`. -/
def overwrite (offset : Nat) (piece b : Bytes) : Bytes :=
  b.take offset ++ (piece ++ b.drop (offset + piece.length))

/-- A piece that is replaced by one of the same length. -/
theorem overwrite_append {piece piece' : Bytes} (h : piece'.length = piece.length)
    (front tail : Bytes) :
    overwrite front.length piece' (front ++ (piece ++ tail)) = front ++ (piece' ++ tail) := by
  rw [overwrite, List.take_left, h, ← List.drop_drop, List.drop_left, List.drop_left]

end Bytes

/-- A way over a buffer in pieces of `size` bytes.  Each step is given a register and a piece
as it stands in the buffer, and gives what replaces the piece and the next register. -/
structure Pass (σ : Type) where
  size : Nat
  step : σ → Bytes → Bytes × σ

namespace Pass

section

variable {σ : Type} (p : Pass σ)

/-- `count` pieces in place, from `offset` on. -/
def run : (count offset : Nat) → (register : σ) → Bytes → Bytes
  | 0, _, _, b => b
  | count + 1, offset, s, b =>
      let (x, s') := p.step s ((b.drop offset).take p.size)
      run count (offset + p.size) s' (Bytes.overwrite offset x b)

/-- All whole pieces of a buffer, in place. -/
def sweep (s : σ) (b : Bytes) : Bytes :=
  p.run (b.length / p.size) 0 s b

/-- The same, with a buffer of its own for the result. -/
def copied : (count : Nat) → (register : σ) → Bytes → Bytes
  | 0, _, b => b
  | count + 1, s, b =>
      let (x, s') := p.step s (b.take p.size)
      x ++ copied count s' (b.drop p.size)

/-- Pieces are replaced by pieces of the same length, as long as registers are `ready`. -/
def KeepsSize (ready : σ → Prop) : Prop :=
  ∀ s x, ready s → x.length = p.size →
    (p.step s x).1.length = p.size ∧ ready (p.step s x).2

variable {p} {ready : σ → Prop}

/-- What is behind the pieces already replaced is still the buffer that was there before, so
no step reads what another one has written. -/
theorem run_append (hp : p.KeepsSize ready) (count : Nat) {s : σ} (hs : ready s)
    (front b : Bytes) (hb : count * p.size ≤ b.length) :
    p.run count front.length s (front ++ b) = front ++ p.copied count s b := by
  -- The next piece goes to the end of `front`, which no later step reads.
  induction count generalizing s front b with
  | zero => rfl
  | succ count ih =>
      rw [Nat.add_one_mul] at hb
      have hx : (b.take p.size).length = p.size := List.length_take_of_le (by omega)
      obtain ⟨hl, hr⟩ := hp s (b.take p.size) hs hx
      have hread : ((front ++ b).drop front.length).take p.size = b.take p.size := by
        rw [List.drop_left]
      have hwrite : Bytes.overwrite front.length (p.step s (b.take p.size)).1 (front ++ b)
          = (front ++ (p.step s (b.take p.size)).1) ++ b.drop p.size := by
        have h := Bytes.overwrite_append (hl.trans hx.symm) front (b.drop p.size)
        rwa [List.take_append_drop, ← List.append_assoc] at h
      have hnext : front.length + p.size
          = (front ++ (p.step s (b.take p.size)).1).length := by
        rw [List.length_append, hl]
      have hrest : count * p.size ≤ (b.drop p.size).length := by
        rw [List.length_drop]
        omega
      rw [run, copied, hread]
      dsimp only
      rw [hwrite, hnext, ih hr _ _ hrest, List.append_assoc]

/-- **A pass in place leaves what a pass into another buffer gives.** -/
theorem sweep_eq_copied (hp : p.KeepsSize ready) {s : σ} (hs : ready s) (b : Bytes) :
    p.sweep s b = p.copied (b.length / p.size) s b :=
  run_append hp _ hs [] b (Nat.div_mul_le_self b.length p.size)

/-- The copying pass is the only function that goes on as it does. -/
theorem copied_unique {g : Nat → σ → Bytes → Bytes} (hzero : ∀ s b, g 0 s b = b)
    (hsucc : ∀ n s b, g (n + 1) s b
      = (p.step s (b.take p.size)).1 ++ g n (p.step s (b.take p.size)).2 (b.drop p.size))
    (n : Nat) (s : σ) (b : Bytes) : p.copied n s b = g n s b := by
  induction n generalizing s b with
  | zero => exact (hzero s b).symm
  | succ n ih =>
      rw [copied, hsucc]
      dsimp only
      rw [ih]

/-- A pass with a step for each byte, as a recursion on the bytes. -/
theorem sweep_unique (hone : p.size = 1) (hp : p.KeepsSize fun _ => True)
    {g : σ → Bytes → Bytes} (hnil : ∀ s, g s [] = [])
    (hcons : ∀ s x rest, g s (x :: rest) = (p.step s [x]).1 ++ g (p.step s [x]).2 rest)
    (s : σ) (b : Bytes) : p.sweep s b = g s b := by
  rw [sweep_eq_copied hp trivial, hone, Nat.div_one]
  induction b generalizing s with
  | nil => exact (hnil s).symm
  | cons x rest ih =>
      rw [List.length_cons, copied, hone]
      dsimp only [List.take, List.drop]
      rw [hcons, ih]

end

/-! ## §2  Modes as passes -/

/-- Pieces that are replaced one by one, with nothing passed on. -/
def codebook (size : Nat) (f : Bytes → Bytes) : Pass Unit where
  size := size
  step _ x := (f x, ())

/-- Single bytes combined with a keystream; the register is the state that gives it. -/
def keystream : Pass Rc4 where
  size := 1
  step s x := s.apply x

section

variable (c : BlockCipher)

/-- The register is the last block of ciphertext, here the one just written. -/
def cbcEncryption : Pass Bytes where
  size := c.size
  step before x :=
    let y := c.encrypt (Bytes.xor x before)
    (y, y)

/-- The register is the last block of ciphertext, here the one just read. -/
def cbcDecryption : Pass Bytes where
  size := c.size
  step before x := (Bytes.xor (c.decrypt x) before, x)

def cfbEncryption : Pass Bytes where
  size := 1
  step register x :=
    let y := Bytes.xor x [Chaining.mask c register]
    (y, register.drop 1 ++ y)

def cfbDecryption : Pass Bytes where
  size := 1
  step register x := (Bytes.xor x [Chaining.mask c register], register.drop 1 ++ x)

end

variable {c : BlockCipher}

theorem sweep_codebook {size : Nat} {f : Bytes → Bytes}
    (hf : ∀ x : Bytes, x.length = size → (f x).length = size) (b : Bytes) :
    (codebook size f).sweep () b = Chaining.mapBlocks size f (b.length / size) b := by
  have hp : (codebook size f).KeepsSize fun _ => True := by
    intro s x _ hx
    exact ⟨hf x hx, trivial⟩
  rw [sweep_eq_copied hp trivial]
  exact copied_unique (g := fun n _ => Chaining.mapBlocks size f n) (fun _ _ => rfl)
    (fun _ _ _ => rfl) _ () b

theorem sweep_cbcEncryption (hc : c.Lawful) {v : Bytes} (hv : v.length = c.size) (b : Bytes) :
    (cbcEncryption c).sweep v b = Chaining.cbcEncrypt c v b := by
  have hp : (cbcEncryption c).KeepsSize fun before => before.length = c.size := by
    intro before x hr hx
    have hm : (Bytes.xor x before).length = c.size := by
      rw [Bytes.length_xor, hr, show x.length = c.size from hx, Nat.min_self]
    exact ⟨hc.length_encrypt _ hm, hc.length_encrypt _ hm⟩
  rw [sweep_eq_copied hp hv]
  exact copied_unique (fun _ _ => rfl) (fun _ _ _ => rfl) _ v b

theorem sweep_cbcDecryption (hc : c.Lawful) {v : Bytes} (hv : v.length = c.size) (b : Bytes) :
    (cbcDecryption c).sweep v b = Chaining.cbcDecrypt c v b := by
  have hp : (cbcDecryption c).KeepsSize fun before => before.length = c.size := by
    intro before x hr hx
    refine ⟨?_, hx⟩
    show (Bytes.xor (c.decrypt x) before).length = c.size
    rw [Bytes.length_xor, hc.length_decrypt x hx, hr, Nat.min_self]
  rw [sweep_eq_copied hp hv]
  exact copied_unique (fun _ _ => rfl) (fun _ _ _ => rfl) _ v b

/-- A byte that is masked stays one byte. -/
theorem length_xor_mask (c : BlockCipher) (register : Bytes) {x : Bytes} (hx : x.length = 1) :
    (Bytes.xor x [Chaining.mask c register]).length = 1 := by
  rw [Bytes.length_xor, hx]
  rfl

theorem sweep_cfbEncryption (v b : Bytes) :
    (cfbEncryption c).sweep v b = Chaining.cfbEncrypt c v b := by
  have hp : (cfbEncryption c).KeepsSize fun _ => True := by
    intro register x _ hx
    exact ⟨length_xor_mask c register hx, trivial⟩
  exact sweep_unique rfl hp (fun _ => rfl) (fun _ _ _ => rfl) v b

theorem sweep_cfbDecryption (v b : Bytes) :
    (cfbDecryption c).sweep v b = Chaining.cfbDecrypt c v b := by
  have hp : (cfbDecryption c).KeepsSize fun _ => True := by
    intro register x _ hx
    exact ⟨length_xor_mask c register hx, trivial⟩
  exact sweep_unique rfl hp (fun _ => rfl) (fun _ _ _ => rfl) v b

theorem sweep_keystream (s : Rc4) (b : Bytes) : keystream.sweep s b = (s.apply b).1 := by
  have hp : keystream.KeepsSize fun _ => True := by
    intro s x _ hx
    refine ⟨?_, trivial⟩
    show (s.apply x).1.length = 1
    rw [Rc4.apply_eq, Bytes.length_xor, Rc4.length_keystream, Nat.min_self]
    exact hx
  exact sweep_unique (g := fun s b => (s.apply b).1) rfl hp (fun _ => rfl) (fun _ _ _ => rfl) s b

end Pass

end PageVault
