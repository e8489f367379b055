import HueStream.Lib.Lists
import Mathlib.Data.List.Infix

/-! # Encryption of the storage

`AES256` puts the number of padding bytes in front of the encrypted blocks. The block cipher is a
parameter; what is assumed of it is that it keeps the length of a block and that decryption undoes
encryption. -/

namespace HueStream.Storage

open HueStream.Lib

/-- The bytes of a `std::string`. -/
abbrev Bytes := List UInt8

/-- `mbedtls_aes_crypt_ecb` in its two modes, under a key of 256 bits. -/
structure BlockCipher where
  encrypt : Bytes → Bytes → Bytes
  decrypt : Bytes → Bytes → Bytes

/-- The block cipher works on blocks of 16 bytes, and decryption undoes encryption. -/
structure BlockCipher.Lawful (aes : BlockCipher) : Prop where
  length_encrypt : ∀ key block : Bytes, block.length = 16 → (aes.encrypt key block).length = 16
  length_decrypt : ∀ key block : Bytes, block.length = 16 → (aes.decrypt key block).length = 16
  decrypt_encrypt : ∀ key block : Bytes, key.length = 32 → block.length = 16 →
    aes.decrypt key (aes.encrypt key block) = block

namespace AES256

variable (aes : BlockCipher)

/-- The number of bytes that are missing in the last block. -/
def padding (data : Bytes) : ℕ := if 0 < data.length % 16 then 16 - data.length % 16 else 0

/-- `AES256::encrypt`. -/
def encrypt (key data : Bytes) : Bytes :=
  if key.length ≠ 32 then []
  else if data.length = 0 then [0]
  else
    let input := data ++ List.replicate (padding data) 0
    (padding data).toUInt8 :: mapBlocks 16 (aes.encrypt key) (input.length / 16) input

/-- `AES256::decrypt`. -/
def decrypt (key data : Bytes) : Bytes :=
  if key.length ≠ 32 then []
  else if data.length % 16 ≠ 1 then []
  else
    let padding := (data.headD 0).toNat
    if 15 < padding ∨ data.length = 1 ∧ padding ≠ 0 then []
    else
      let cyphertext := data.tail
      (mapBlocks 16 (aes.decrypt key) (cyphertext.length / 16) cyphertext).take
        (cyphertext.length - padding)

variable {aes} {key data : Bytes}

theorem padding_le (data : Bytes) : padding data ≤ 15 := by
  unfold padding
  split <;> omega

/-- With its padding the data fills whole blocks. -/
theorem length_padded (data : Bytes) : (data.length + padding data) % 16 = 0 := by
  unfold padding
  split <;> omega

theorem toNat_padding (data : Bytes) : (padding data).toUInt8.toNat = padding data := by
  have := padding_le data
  rw [Nat.toUInt8, UInt8.toNat_ofNat']
  omega

/-- **Decryption undoes encryption**, for data of every length. -/
theorem decrypt_encrypt (haes : aes.Lawful) (hkey : key.length = 32) (data : Bytes) :
    decrypt aes key (encrypt aes key data) = data := by
  unfold encrypt
  rw [if_neg (by omega)]
  by_cases hempty : data.length = 0
  · obtain rfl := List.eq_nil_of_length_eq_zero hempty
    rw [if_pos hempty]
    simp [decrypt, hkey]
  · have hpad := padding_le data
    have hwhole := length_padded data
    have hhead := toNat_padding data
    -- the blocks come back together with the zeros behind the data
    generalize hinput : data ++ List.replicate (padding data) 0 = input
    have hlength : input.length = data.length + padding data := by
      rw [← hinput, List.length_append, List.length_replicate]
    have hblocks : input.length = input.length / 16 * 16 := by omega
    have hcypher : (mapBlocks 16 (aes.encrypt key) (input.length / 16) input).length = input.length :=
      (length_mapBlocks (haes.length_encrypt key) hblocks).trans hblocks.symm
    have hback := mapBlocks_mapBlocks (haes.length_encrypt key)
      (fun b hb => haes.decrypt_encrypt key b hkey hb) hblocks
    have hvalid : ¬ (15 < padding data ∨ input.length + 1 = 1 ∧ padding data ≠ 0) := by omega
    rw [if_neg hempty]
    simp only [decrypt, List.length_cons, List.headD_cons, List.tail_cons, hcypher, hhead]
    rw [if_neg (by omega), if_neg (by omega), if_neg hvalid, hback, hlength, Nat.add_sub_cancel,
      ← hinput, List.take_left]

/-- The padding byte stands in front even of empty data. -/
theorem encrypt_ne_nil (hkey : key.length = 32) (data : Bytes) : encrypt aes key data ≠ [] := by
  unfold encrypt
  rw [if_neg (by omega)]
  split <;> exact List.cons_ne_nil _ _

/-- The bytes that cannot come from data: their length is not that of a padding byte and whole blocks,
the padding is more than a block lacks, or there is no block. -/
def Malformed (data : Bytes) : Prop :=
  data.length % 16 ≠ 1 ∨ 15 < (data.headD 0).toNat ∨ data.length = 1

/-- Decryption gives nothing for malformed bytes, and something for all others, whatever the key. -/
theorem decrypt_eq_nil_iff (haes : aes.Lawful) (hkey : key.length = 32) :
    decrypt aes key data = [] ↔ Malformed data := by
  unfold decrypt Malformed
  rw [if_neg (by omega)]
  by_cases hsize : data.length % 16 = 1
  · rw [if_neg (by omega)]
    have htail : data.tail.length = data.length - 1 := List.length_tail
    have hblocks : data.tail.length = data.tail.length / 16 * 16 := by omega
    have hplain : (mapBlocks 16 (aes.decrypt key) (data.tail.length / 16) data.tail).length =
        data.tail.length :=
      (length_mapBlocks (haes.length_decrypt key) hblocks).trans hblocks.symm
    by_cases hinvalid : 15 < (data.headD 0).toNat ∨ data.length = 1 ∧ (data.headD 0).toNat ≠ 0
    · simp only [if_pos hinvalid, true_iff]
      omega
    · simp only [if_neg hinvalid, ← List.length_eq_zero_iff, List.length_take, hplain]
      omega
  · rw [if_pos hsize]
    exact iff_of_true rfl (.inl hsize)

end AES256

end HueStream.Storage
