import HueStream.Flow.Message
import HueStream.Json.Node
import HueStream.Storage.AES256
import HueStream.Storage.RoundTrip
import Mathlib.Logic.Equiv.Basic
import Mathlib.Algebra.Group.End

/-! # The storage file

`BridgeFileStorageAccessor` keeps the bridges in a file: the text of the JSON, encrypted if the
application settings have a key for it. A file that cannot be opened is `none`. The hash, the block
cipher and the JSON parser are parameters. -/

namespace HueStream.Data.StoredData

open HueStream.Json HueStream.Storage

/-- `SerializeText`. -/
def serializeText (d : StoredData) : Bytes := (JSONNode.node d.serialize).writeFormatted

/-- `DeserializeText`. -/
def deserializeText (parse : Bytes → JSONNode) (atof : String → ℚ) (text : Bytes) : Option StoredData :=
  deserialize atof (parse text)

theorem serializeText_ne_nil (d : StoredData) : d.serializeText ≠ [] :=
  JSONNode.writeFormatted_ne_nil d.serialize

end HueStream.Data.StoredData

namespace HueStream.Storage

open HueStream.Data HueStream.Flow HueStream.Json

/-- The key in the application settings, if there are any settings. -/
structure BridgeFileStorageAccessor where
  storageEncryptionKey : Option Bytes

namespace BridgeFileStorageAccessor

variable (aes : BlockCipher) (sha256 : Bytes → Bytes) (parse : Bytes → JSONNode) (atof : String → ℚ)
  (accessor : BridgeFileStorageAccessor)

/-- The settings have a key that is not empty. -/
def HasKey : Prop := ∃ key, accessor.storageEncryptionKey = some key ∧ key ≠ []

/-- `get_encryption_key_hash`. -/
def getEncryptionKeyHash : Bytes :=
  match accessor.storageEncryptionKey with
  | none => []
  | some key => if key = [] then [] else sha256 (utf8 "EDK_BRIDGE_INFO_" ++ key ++ [0])

/-- `encrypt_data`. -/
def encryptData (data : Bytes) : Bytes :=
  let encryptionKey := accessor.getEncryptionKeyHash sha256
  if encryptionKey = [] then data else AES256.encrypt aes encryptionKey data

/-- `decrypt_data`. -/
def decryptData (data : Bytes) : Bytes :=
  let encryptionKey := accessor.getEncryptionKeyHash sha256
  if encryptionKey = [] then data else AES256.decrypt aes encryptionKey data

/-- `Load`: what the callback is given. Data that was not loaded has one empty bridge. -/
def load (file : Option Bytes) : OperationResult × Option StoredData :=
  match file with
  | none => (.failed, some { bridges := [{}] })
  | some contents =>
    let decryptedContents := accessor.decryptData aes sha256 contents
    if decryptedContents ≠ [] ∨ contents = [] then
      (.success, StoredData.deserializeText parse atof decryptedContents)
    else (.failed, some { bridges := [{}] })

/-- `Save`: what the callback is given, and the file after it; `opens` says if it can be written. -/
def save (opens : Bool) (file : Option Bytes) (bridges : StoredData) :
    OperationResult × Option Bytes :=
  if opens then (.success, some (accessor.encryptData aes sha256 bridges.serializeText))
  else (.failed, file)

variable {aes sha256 parse atof}

/-! ### Encrypting and decrypting -/

/-- The hash is there exactly when the settings have a key. -/
theorem getEncryptionKeyHash_cases (hsha256 : ∀ m, (sha256 m).length = 32) :
    (¬ accessor.HasKey ∧ accessor.getEncryptionKeyHash sha256 = []) ∨
    (accessor.HasKey ∧ accessor.getEncryptionKeyHash sha256 ≠ [] ∧
      (accessor.getEncryptionKeyHash sha256).length = 32) := by
  unfold HasKey getEncryptionKeyHash
  cases hkey : accessor.storageEncryptionKey with
  | none => simp
  | some key =>
    by_cases hempty : key = []
    · simp [hempty]
    · have hsome : ∀ m, sha256 m ≠ [] := by
        intro m hnil
        have hlength := hsha256 m
        simp [hnil] at hlength
      simp [hempty, hsha256, hsome]

theorem decryptData_encryptData (haes : aes.Lawful) (hsha256 : ∀ m, (sha256 m).length = 32)
    (data : Bytes) :
    accessor.decryptData aes sha256 (accessor.encryptData aes sha256 data) = data := by
  unfold decryptData encryptData
  rcases getEncryptionKeyHash_cases accessor hsha256 with ⟨-, hnone⟩ | ⟨-, hsome, hlength⟩
  · simp only [hnone, if_true]
  · simp only [if_neg hsome]
    exact AES256.decrypt_encrypt haes hlength data

/-- The assertion of `Save`. -/
theorem encryptData_ne_nil (hsha256 : ∀ m, (sha256 m).length = 32) {data : Bytes} (h : data ≠ []) :
    accessor.encryptData aes sha256 data ≠ [] := by
  unfold encryptData
  rcases getEncryptionKeyHash_cases accessor hsha256 with ⟨-, hnone⟩ | ⟨-, hsome, hlength⟩
  · simpa only [hnone, if_true] using h
  · simp only [if_neg hsome]
    exact AES256.encrypt_ne_nil hlength data

/-! ### Saving and loading -/

variable {accessor}

theorem save_success {opens : Bool} {file file' : Option Bytes} {d : StoredData}
    (h : accessor.save aes sha256 opens file d = (.success, file')) :
    file' = some (accessor.encryptData aes sha256 d.serializeText) := by
  unfold save at h
  cases opens with
  | true => exact (Prod.mk.inj h).2.symm
  | false => simp at h

theorem load_of_decrypted {contents text : Bytes} (h : accessor.decryptData aes sha256 contents = text)
    (hne : text ≠ []) :
    accessor.load aes sha256 parse atof (some contents) =
      (.success, StoredData.deserializeText parse atof text) := by
  subst h
  exact if_pos (.inl hne)

/-- **What was saved is loaded.** Whatever the key, also without one, a load after a save that succeeded
succeeds and reads the text that was saved, since decryption undoes encryption for data of every
length. -/
theorem load_save (haes : aes.Lawful) (hsha256 : ∀ m, (sha256 m).length = 32) :
    (∀ key data : Bytes, key.length = 32 →
      AES256.decrypt aes key (AES256.encrypt aes key data) = data) ∧
    ∀ (accessor : BridgeFileStorageAccessor) (opens : Bool) (file file' : Option Bytes)
      (d : StoredData) (parse : Bytes → JSONNode) (atof : String → ℚ),
      accessor.save aes sha256 opens file d = (.success, file') →
      (∃ contents, file' = some contents ∧
        accessor.decryptData aes sha256 contents = d.serializeText) ∧
      accessor.load aes sha256 parse atof file' =
        (.success, StoredData.deserializeText parse atof d.serializeText) := by
  refine ⟨fun key data hkey => AES256.decrypt_encrypt haes hkey data, ?_⟩
  intro accessor opens file file' d parse atof hsave
  obtain rfl := save_success hsave
  have hdecrypt := decryptData_encryptData accessor haes hsha256 d.serializeText
  exact ⟨⟨_, rfl, hdecrypt⟩, load_of_decrypted hdecrypt d.serializeText_ne_nil⟩

/-- Where the parser reads what is written, the data comes back as after a restart. -/
theorem load_save_restored (haes : aes.Lawful) (hsha256 : ∀ m, (sha256 m).length = 32)
    {file file' : Option Bytes} {opens : Bool} {d : StoredData}
    (hparse : parse d.serializeText = .node d.serialize) (hints : d.Ints)
    (hsave : accessor.save aes sha256 opens file d = (.success, file')) :
    accessor.load aes sha256 parse atof file' = (.success, some d.restored) := by
  obtain rfl := save_success hsave
  have hdecrypt := decryptData_encryptData accessor haes hsha256 d.serializeText
  rw [load_of_decrypted hdecrypt d.serializeText_ne_nil, StoredData.deserializeText, hparse,
    StoredData.deserialize_serialize hints]

/-! ### An example key -/

/-- The hash of the key `k`. -/
def exampleKeyHash : Bytes :=
  [133, 211, 35, 32, 189, 187, 180, 23, 222, 53, 193, 196, 24, 61, 53, 135,
    144, 45, 16, 153, 80, 164, 225, 172, 73, 145, 169, 226, 159, 33, 44, 147]

/-- Blocks and what they are under this hash. -/
def exampleBlocks : List (Bytes × Bytes) :=
  [
    ([123, 10, 9, 34, 116, 121, 112, 101, 34, 32, 58, 32, 34, 104, 117, 101],
      [170, 28, 148, 231, 154, 25, 4, 130, 232, 5, 216, 107, 129, 78, 22, 103]),
    ([115, 116, 114, 101, 97, 109, 46, 72, 117, 101, 83, 116, 114, 101, 97, 109],
      [68, 156, 194, 54, 222, 204, 157, 151, 220, 149, 131, 152, 205, 163, 209, 38]),
    ([68, 97, 116, 97, 34, 44, 10, 9, 34, 86, 101, 114, 115, 105, 111, 110],
      [119, 113, 60, 70, 224, 116, 241, 129, 34, 186, 210, 8, 234, 219, 64, 66]),
    ([34, 32, 58, 32, 48, 44, 10, 9, 34, 66, 114, 105, 100, 103, 101, 115],
      [39, 194, 150, 206, 195, 70, 43, 135, 125, 55, 162, 204, 183, 119, 145, 143]),
    ([34, 32, 58, 32, 91, 93, 10, 125, 0, 0, 0, 0, 0, 0, 0, 0],
      [203, 96, 81, 128, 168, 103, 44, 73, 44, 10, 115, 51, 47, 238, 154, 83]),
    ([123, 34, 116, 121, 112, 101, 34, 58, 34, 104, 117, 101, 115, 116, 114, 101],
      [193, 166, 163, 63, 200, 135, 227, 12, 74, 78, 52, 252, 132, 216, 115, 89]),
    ([97, 109, 46, 72, 117, 101, 83, 116, 114, 101, 97, 109, 68, 97, 116, 97],
      [242, 111, 82, 190, 118, 69, 248, 173, 184, 198, 67, 108, 247, 8, 21, 219]),
    ([34, 44, 34, 86, 101, 114, 115, 105, 111, 110, 34, 58, 48, 44, 34, 66],
      [127, 216, 36, 133, 46, 91, 229, 23, 120, 244, 36, 39, 2, 202, 235, 238]),
    ([114, 105, 100, 103, 101, 115, 34, 58, 91, 123, 34, 116, 121, 112, 101, 34],
      [232, 42, 193, 228, 230, 123, 250, 16, 57, 21, 205, 71, 133, 205, 70, 18]),
    ([58, 34, 104, 117, 101, 115, 116, 114, 101, 97, 109, 46, 66, 114, 105, 100],
      [158, 216, 242, 174, 112, 51, 234, 182, 5, 155, 236, 207, 30, 82, 240, 147]),
    ([103, 101, 34, 44, 34, 73, 100, 34, 58, 34, 98, 34, 44, 34, 85, 115],
      [215, 49, 152, 201, 148, 177, 162, 25, 97, 226, 28, 64, 107, 213, 30, 79]),
    ([101, 114, 34, 58, 34, 117, 34, 125, 93, 125, 0, 0, 0, 0, 0, 0],
      [219, 169, 208, 89, 148, 122, 80, 46, 12, 55, 21, 78, 186, 78, 81, 152])]

/-- The permutation of the blocks that exchanges the two of each pair. -/
def exchange (pairs : List (Bytes × Bytes)) : Equiv.Perm Bytes :=
  pairs.foldr (fun pair e => Equiv.swap pair.1 pair.2 * e) 1

/-- The block cipher on the blocks of the example. -/
def exampleCipher : BlockCipher where
  encrypt key block := if key = exampleKeyHash then exchange exampleBlocks block else block
  decrypt key block := if key = exampleKeyHash then (exchange exampleBlocks).symm block else block

/-- The hash of what is made of the key `k`. -/
def exampleSha256 (m : Bytes) : Bytes :=
  if m = utf8 "EDK_BRIDGE_INFO_k" ++ [0] then exampleKeyHash else List.replicate 32 0

theorem length_exchange {pairs : List (Bytes × Bytes)}
    (h : ∀ pair ∈ pairs, pair.1.length = pair.2.length) (block : Bytes) :
    (exchange pairs block).length = block.length := by
  unfold exchange
  induction pairs with
  | nil => rfl
  | cons pair pairs ih =>
    have hpair := h pair List.mem_cons_self
    rw [List.foldr_cons, Equiv.Perm.mul_apply, ← ih fun p hp => h p (List.mem_cons_of_mem _ hp)]
    generalize (pairs.foldr _ (1 : Equiv.Perm Bytes)) block = b
    rw [Equiv.swap_apply_def]
    split_ifs with h1 h2
    · rw [h1, hpair]
    · rw [h2, hpair]
    · rfl

theorem lawful_exampleCipher : exampleCipher.Lawful := by
  have hpairs : ∀ pair ∈ exampleBlocks, pair.1.length = pair.2.length := by decide
  have hlength := length_exchange hpairs
  refine ⟨fun key block h => ?_, fun key block h => ?_, fun key block _ _ => ?_⟩
  · unfold exampleCipher
    dsimp only
    split_ifs with hkey
    · rw [hlength, h]
    · exact h
  · unfold exampleCipher
    dsimp only
    split_ifs with hkey
    · rw [← hlength, Equiv.apply_symm_apply, h]
    · exact h
  · unfold exampleCipher
    by_cases hkey : key = exampleKeyHash
    · simp [hkey]
    · simp [hkey]

theorem length_exampleSha256 (m : Bytes) : (exampleSha256 m).length = 32 := by
  unfold exampleSha256
  split_ifs <;> rfl

/-- Empty data under the key `k`: its text is padded by eight bytes. -/
theorem load_save_example :
    (((BridgeFileStorageAccessor.mk (some (utf8 "k"))).save exampleCipher exampleSha256 true none
      {}).2.map fun contents => (contents.length, contents.take 3)) = some (81, [8, 170, 28]) ∧
    (BridgeFileStorageAccessor.mk (some (utf8 "k"))).load exampleCipher exampleSha256
        (fun _ => .node (StoredData.serialize {})) (fun _ => 0)
        ((BridgeFileStorageAccessor.mk (some (utf8 "k"))).save exampleCipher exampleSha256 true none
          {}).2 =
      (.success, StoredData.deserializeText (fun _ => .node (StoredData.serialize {})) (fun _ => 0)
        (StoredData.serializeText {})) :=
  ⟨by decide +kernel,
    ((load_save lawful_exampleCipher length_exampleSha256).2 ⟨some (utf8 "k")⟩ true none _ {}
      (fun _ => .node (StoredData.serialize {})) (fun _ => 0) rfl).2⟩

end BridgeFileStorageAccessor

end HueStream.Storage
