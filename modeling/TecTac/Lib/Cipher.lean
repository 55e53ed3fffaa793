import Mathlib

/-!
# Bytes and authenticated encryption

The UTF-8 bytes of a text and their reading; a separator that is not in what follows it; and a cipher that authenticates additional data. An ideal cipher
opens a ciphertext only with the key and the additional data that it was made with. `Aead.boxed` is one, which hides nothing.
-/

namespace Bytes

/-- The UTF-8 bytes of a text. -/
def utf8 (s : String) : List UInt8 := s.toList.flatMap String.utf8EncodeChar

/-- The text of which these are the UTF-8 bytes. -/
def decodeUtf8 (raw : List UInt8) : Option String := raw.toByteArray.utf8Decode?.map fun chars => String.ofList chars.toList

@[simp] theorem decodeUtf8_utf8 (s : String) : decodeUtf8 (utf8 s) = some s := by
  have hbytes : (utf8 s).toByteArray = s.toList.utf8Encode := rfl
  rw [decodeUtf8, hbytes, List.utf8Decode?_utf8Encode]
  simp

theorem utf8_injective : Function.Injective utf8 := by
  intro s t h
  have := decodeUtf8_utf8 t
  rw [← h, decodeUtf8_utf8] at this
  exact Option.some.inj this

/-- A character has at most four bytes. -/
theorem length_utf8_le (s : String) : (utf8 s).length ≤ 4 * s.length := by
  rw [utf8, List.length_flatMap, ← String.length_toList]
  generalize s.toList = cs
  induction cs with
  | nil => simp
  | cons c cs ih =>
    have := c.utf8Size_le_four
    simp only [String.length_utf8EncodeChar] at ih
    simp only [List.map_cons, List.sum_cons, String.length_utf8EncodeChar, List.length_cons]
    omega

/-- The bytes of a text in which every character is a byte other than zero. -/
theorem zero_notMem_utf8 {s : String} (h : ∀ c ∈ s.toList, 0 < c.toNat ∧ c.toNat ≤ 127) : 0 ∉ utf8 s := by
  intro hmem
  obtain ⟨c, hc, hbyte⟩ := List.mem_flatMap.mp hmem
  obtain ⟨hpos, hle⟩ := h c hc
  have hsize : c.utf8Size = 1 := Char.utf8Size_eq_one_iff.mpr hle
  rw [String.utf8EncodeChar_eq_singleton hsize, List.mem_singleton] at hbyte
  have hval : c.val.toNat % 256 = 0 := (UInt32.toNat_toUInt8 c.val).symm.trans (congrArg UInt8.toNat hbyte).symm
  have hnat : c.toNat = c.val.toNat := rfl
  omega

/-- A separator that is not in what follows it. -/
theorem append_separator_inj {α : Type*} {x : α} {a b c d : List α} (h : a ++ x :: b = c ++ x :: d) (hb : x ∉ b) (hd : x ∉ d) : a = c ∧ b = d := by
  rcases List.append_eq_append_iff.mp h with ⟨between, rfl, hrest⟩ | ⟨between, rfl, hrest⟩
  · cases between with
    | nil => exact ⟨by simp, (List.cons.inj hrest).2⟩
    | cons y between =>
      rw [List.cons_append, List.cons.injEq] at hrest
      exact absurd (hrest.2 ▸ List.mem_append_right _ List.mem_cons_self) hb
  · cases between with
    | nil => exact ⟨by simp, (List.cons.inj hrest).2.symm⟩
    | cons y between =>
      rw [List.cons_append, List.cons.injEq] at hrest
      exact absurd (hrest.2 ▸ List.mem_append_right _ List.mem_cons_self) hd

end Bytes

/-- A cipher with a key, a nonce, the plain bytes and the additional data. -/
structure Aead where
  encrypt : List UInt8 → List UInt8 → List UInt8 → List UInt8 → List UInt8
  decrypt : List UInt8 → List UInt8 → List UInt8 → List UInt8 → Option (List UInt8)

namespace Aead

/-- What is relied on: a ciphertext opens with its key and its additional data, with no others, and is longer by the tag. -/
structure Ideal (cipher : Aead) : Prop where
  opens : ∀ key nonce plain data, cipher.decrypt key nonce (cipher.encrypt key nonce plain data) data = some plain
  only : ∀ key nonce plain data key' data' plain',
    cipher.decrypt key' nonce (cipher.encrypt key nonce plain data) data' = some plain' → key' = key ∧ data' = data
  long : ∀ key nonce plain data, plain.length + 16 ≤ (cipher.encrypt key nonce plain data).length

/-- Bytes with a mark before each of them and one at the end. -/
def frame : List UInt8 → List UInt8
  | [] => [0]
  | b :: bs => 1 :: b :: frame bs

theorem frame_append_inj {a b x y : List UInt8} (h : frame a ++ x = frame b ++ y) : a = b ∧ x = y := by
  induction a generalizing b with
  | nil =>
    cases b with
    | nil => exact ⟨rfl, by simpa [frame] using h⟩
    | cons c b => simp [frame] at h
  | cons c a ih =>
    cases b with
    | nil => simp [frame] at h
    | cons d b =>
      simp only [frame, List.cons_append, List.cons.injEq, true_and] at h
      obtain ⟨rfl, hx⟩ := ih h.2
      exact ⟨by rw [h.1], hx⟩

/-- The bytes before the plain ones. -/
def head (key data : List UInt8) : List UInt8 := List.replicate 16 0 ++ (frame key ++ frame data)

/-- The key and the additional data stand before the plain bytes. -/
def boxed : Aead where
  encrypt key _ plain data := head key data ++ plain
  decrypt key _ text data := if head key data <+: text then some (text.drop (head key data).length) else none

theorem ideal_boxed : boxed.Ideal where
  opens key nonce plain data := by simp [boxed]
  only key nonce plain data key' data' plain' h := by
    simp only [boxed] at h
    split at h
    · rename_i hpre
      obtain ⟨rest, hrest⟩ := hpre
      simp only [head, List.append_assoc, List.append_cancel_left_eq] at hrest
      obtain ⟨rfl, hdata⟩ := frame_append_inj hrest
      exact ⟨rfl, (frame_append_inj hdata).1⟩
    · cases h
  long key nonce plain data := by
    simp only [boxed, head, List.length_append, List.length_replicate]
    omega

end Aead
