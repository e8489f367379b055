import HueStream.Storage.FileAccessor

/-! # What a load that succeeds has read

A load takes the contents for decrypted unless nothing comes out of them, and it takes whatever comes out
for the stored data. Without a key nothing is ever refused; with one only the contents that cannot have
been encrypted are. Text that holds no data gives an empty list of bridges. -/

namespace HueStream.Storage

open HueStream.Data HueStream.Flow HueStream.Json

variable {aes : BlockCipher} {sha256 : Bytes → Bytes} {parse : Bytes → JSONNode} {atof : String → ℚ}

/-! ### Stored data -/

/-- The text is JSON that holds the serialized data: it names the type, has a version and a list of
bridges, and every bridge can be read. -/
structure HoldsData (parse : Bytes → JSONNode) (atof : String → ℚ) (text : Bytes) (d : StoredData) :
    Prop where
  type : ((parse text).find "type").map JSONNode.asString = some "huestream.HueStreamData"
  version : (parse text).isAttributeSet "Version" = true
  bridges : ∃ items, (parse text).find "Bridges" = some (.array items)
  read : StoredData.deserializeText parse atof text = some d

/-- The text of the data holds it where the parser reads what is written. -/
theorem holdsData_serializeText {d : StoredData} (hparse : parse d.serializeText = .node d.serialize)
    (hints : d.Ints) : HoldsData parse atof d.serializeText d.restored := by
  refine ⟨?_, ?_, ⟨d.bridges.map fun b => .node b.serialize, ?_⟩, ?_⟩
  · simp [hparse, StoredData.serialize]
  · simp [hparse, StoredData.serialize, JSONNode.isAttributeSet]
  · simp [hparse, StoredData.serialize]
  · rw [StoredData.deserializeText, hparse, StoredData.deserialize_serialize hints]

/-- A user name of a bridge is among the data. -/
def HasCredentials (d : StoredData) : Prop := ∃ b ∈ d.bridges, b.user ≠ ""

namespace BridgeFileStorageAccessor

variable (aes sha256 parse atof) in
/-- Some key reads credentials from the contents. -/
def Recoverable (contents : Bytes) : Prop :=
  ∃ (accessor : BridgeFileStorageAccessor) (d : StoredData),
    HoldsData parse atof (accessor.decryptData aes sha256 contents) d ∧ HasCredentials d

variable (aes sha256 parse atof) in
/-- The load hands over an empty list of bridges that is not the one that is stored. -/
def Emptied (accessor : BridgeFileStorageAccessor) (contents : Bytes) : Prop :=
  ∃ d, (accessor.load aes sha256 parse atof (some contents)).2 = some d ∧ d.bridges = [] ∧
    ¬ HoldsData parse atof (accessor.decryptData aes sha256 contents) d

variable (aes sha256 parse atof) in
/-- A load succeeds only with stored data, and does not lose what could still be read. -/
structure LoadsSoundly (accessor : BridgeFileStorageAccessor) (contents : Bytes) : Prop where
  holds : (accessor.load aes sha256 parse atof (some contents)).1 = .success →
    ∃ d, HoldsData parse atof (accessor.decryptData aes sha256 contents) d
  keeps : (accessor.load aes sha256 parse atof (some contents)).1 = .success →
    ¬ (accessor.Emptied aes sha256 parse atof contents ∧
      Recoverable aes sha256 parse atof contents)

variable {accessor : BridgeFileStorageAccessor} {contents : Bytes}

/-! ### When a load succeeds -/

theorem load_success_iff :
    (accessor.load aes sha256 parse atof (some contents)).1 = .success ↔
      accessor.decryptData aes sha256 contents ≠ [] ∨ contents = [] := by
  unfold load
  by_cases h : accessor.decryptData aes sha256 contents ≠ [] ∨ contents = []
  · simp [h]
  · simp [h]

/-- Nothing comes out of the contents exactly if there is a key and they are malformed, or there is none
and they are empty. -/
theorem decryptData_eq_nil_iff (haes : aes.Lawful) (hsha256 : ∀ m, (sha256 m).length = 32) :
    accessor.decryptData aes sha256 contents = [] ↔
      (accessor.HasKey ∧ AES256.Malformed contents) ∨ (¬ accessor.HasKey ∧ contents = []) := by
  unfold decryptData
  rcases getEncryptionKeyHash_cases accessor hsha256 with ⟨hkey, hnone⟩ | ⟨hkey, hsome, hlength⟩
  · simp [hnone, hkey]
  · simp only [if_neg hsome, AES256.decrypt_eq_nil_iff haes hlength, hkey, true_and, not_true,
      false_and, or_false]

/-- A load fails exactly on contents that are malformed under a key and not empty. -/
theorem load_success_iff_malformed (haes : aes.Lawful) (hsha256 : ∀ m, (sha256 m).length = 32) :
    (accessor.load aes sha256 parse atof (some contents)).1 = .success ↔
      ¬ (contents ≠ [] ∧ accessor.HasKey ∧ AES256.Malformed contents) := by
  rw [load_success_iff, Ne, decryptData_eq_nil_iff haes hsha256]
  by_cases hempty : contents = []
  · simp [hempty]
  · simp [hempty]

/-- Data that is held is what the load hands over. -/
theorem not_emptied_of_holdsData {d : StoredData}
    (hsuccess : (accessor.load aes sha256 parse atof (some contents)).1 = .success)
    (hd : HoldsData parse atof (accessor.decryptData aes sha256 contents) d) :
    ¬ accessor.Emptied aes sha256 parse atof contents := by
  rintro ⟨d', hload, -, hnot⟩
  have hread : (accessor.load aes sha256 parse atof (some contents)).2 =
      StoredData.deserializeText parse atof (accessor.decryptData aes sha256 contents) := by
    simp only [load, if_pos (load_success_iff.mp hsuccess)]
  obtain rfl : d = d' := Option.some.inj (hd.read.symm.trans (hread.symm.trans hload))
  exact hnot hd

/-- **When a load is sound.** A load is sound exactly on the contents that it refuses (they are not
empty, there is a key, and no data is encrypted like this) and on those that decrypt to a text that does
hold data. -/
theorem loadsSoundly_iff (haes : aes.Lawful) (hsha256 : ∀ m, (sha256 m).length = 32)
    (parse : Bytes → JSONNode) (atof : String → ℚ) (accessor : BridgeFileStorageAccessor)
    (contents : Bytes) :
    accessor.LoadsSoundly aes sha256 parse atof contents ↔
      (contents ≠ [] ∧ accessor.HasKey ∧ AES256.Malformed contents) ∨
      ∃ d, HoldsData parse atof (accessor.decryptData aes sha256 contents) d := by
  constructor
  · intro h
    by_cases hsuccess : (accessor.load aes sha256 parse atof (some contents)).1 = .success
    · exact .inr (h.holds hsuccess)
    · rw [load_success_iff_malformed haes hsha256, not_not] at hsuccess
      exact .inl hsuccess
  · rintro (hrefused | ⟨d, hd⟩)
    · have hfail : (accessor.load aes sha256 parse atof (some contents)).1 ≠ .success := by
        rw [Ne, load_success_iff_malformed haes hsha256, not_not]
        exact hrefused
      exact ⟨fun h => absurd h hfail, fun h => absurd h hfail⟩
    · exact ⟨fun _ => ⟨d, hd⟩, fun h hlost => not_emptied_of_holdsData h hd hlost.1⟩

/-! ### Failing contents -/

/-- A text with the user name of a bridge. -/
def exampleText : Bytes :=
  utf8 "\x7b\"type\":\"huestream.HueStreamData\",\"Version\":0,\"Bridges\":[" ++
    utf8 "\x7b\"type\":\"huestream.Bridge\",\"Id\":\"b\",\"User\":\"u\"\x7d]\x7d"

/-- The parser on this text and on texts that are not JSON. -/
def exampleParse (text : Bytes) : JSONNode :=
  if text = exampleText then
    .node [("type", .string "huestream.HueStreamData"), ("Version", .number 0 "0"), ("Bridges", .array
      [.node [("type", .string "huestream.Bridge"), ("Id", .string "b"), ("User", .string "u")]])]
  else .null

/-- The settings with the key `k`. -/
def withKey : BridgeFileStorageAccessor := ⟨some (utf8 "k")⟩

/-- The settings without a key. -/
def withoutKey : BridgeFileStorageAccessor := ⟨some []⟩

/-- Without a key nothing is decrypted. -/
theorem decryptData_withoutKey (data : Bytes) : withoutKey.decryptData aes sha256 data = data := rfl

/-- The text, encrypted. -/
def exampleContents : Bytes := withKey.encryptData exampleCipher exampleSha256 exampleText

theorem exampleParse_of_ne {text : Bytes} (h : text ≠ exampleText) : exampleParse text = .null :=
  if_neg h

theorem decryptData_exampleContents :
    withKey.decryptData exampleCipher exampleSha256 exampleContents = exampleText :=
  decryptData_encryptData _ lawful_exampleCipher length_exampleSha256 exampleText

theorem exampleContents_ne : exampleContents ≠ exampleText := by decide +kernel

theorem exampleText_ne_nil : exampleText ≠ [] := by decide +kernel

theorem exampleContents_ne_nil : exampleContents ≠ [] :=
  encryptData_ne_nil _ length_exampleSha256 exampleText_ne_nil

/-- The data that the text holds. -/
def exampleData : StoredData where
  bridges := [{ id := "b", user := "u", appId := "u", selectedGroup := "" }]

theorem holdsData_exampleText : HoldsData exampleParse (fun _ => 0) exampleText exampleData := by
  refine ⟨?_, ?_, ⟨[.node [("type", .string "huestream.Bridge"), ("Id", .string "b"),
    ("User", .string "u")]], ?_⟩, ?_⟩
  · simp [exampleParse, JSONNode.asString]
  · simp [exampleParse, JSONNode.isAttributeSet]
  · simp [exampleParse]
  · rw [StoredData.deserializeText, exampleParse, if_pos rfl]
    rfl

/-- An empty list of bridges for an empty file, and for encrypted contents that are loaded without the
key; when it is saved, the key no longer reads the credentials. -/
theorem exists_unsound_load :
    (¬ withKey.LoadsSoundly exampleCipher exampleSha256 exampleParse (fun _ => 0) []) ∧
    (¬ withoutKey.LoadsSoundly exampleCipher exampleSha256 exampleParse (fun _ => 0)
      exampleContents) ∧
    withKey.load exampleCipher exampleSha256 exampleParse (fun _ => 0) (some exampleContents) =
      (.success, some exampleData) ∧
    withoutKey.load exampleCipher exampleSha256 exampleParse (fun _ => 0) (some exampleContents) =
      (.success, some {}) ∧
    (withKey.load exampleCipher exampleSha256 exampleParse (fun _ => 0)
      (withoutKey.save exampleCipher exampleSha256 true (some exampleContents) {}).2).1 = .failed := by
  have hloaded : withoutKey.load exampleCipher exampleSha256 exampleParse (fun _ => 0)
      (some exampleContents) = (.success, some {}) := by
    rw [load_of_decrypted (decryptData_withoutKey exampleContents) exampleContents_ne_nil, StoredData.deserializeText,
      exampleParse_of_ne exampleContents_ne]
    rfl
  have hread : withKey.load exampleCipher exampleSha256 exampleParse (fun _ => 0)
      (some exampleContents) = (.success, some exampleData) := by
    rw [load_of_decrypted decryptData_exampleContents exampleText_ne_nil, holdsData_exampleText.read]
  refine ⟨fun h => ?_, fun h => ?_, hread, hloaded, by decide +kernel⟩
  · obtain ⟨d, hd⟩ := h.holds (load_success_iff.mpr (.inr rfl))
    have htype := hd.type
    rw [show withKey.decryptData exampleCipher exampleSha256 [] = [] by decide +kernel,
      exampleParse_of_ne exampleText_ne_nil.symm] at htype
    cases htype
  · have hrecoverable : Recoverable exampleCipher exampleSha256 exampleParse (fun _ => 0)
        exampleContents :=
      ⟨withKey, exampleData, decryptData_exampleContents ▸ holdsData_exampleText,
        _, List.mem_singleton_self _, by decide⟩
    refine h.keeps (by rw [hloaded]) ⟨⟨{}, by rw [hloaded], rfl, fun hd => ?_⟩, hrecoverable⟩
    have htype := hd.type
    rw [decryptData_withoutKey, exampleParse_of_ne exampleContents_ne] at htype
    cases htype

/-- The example with its key is loaded soundly. -/
theorem loadsSoundly_example :
    withKey.LoadsSoundly exampleCipher exampleSha256 exampleParse (fun _ => 0) exampleContents :=
  (loadsSoundly_iff lawful_exampleCipher length_exampleSha256 exampleParse (fun _ => 0) withKey
    exampleContents).mpr (.inr ⟨exampleData, decryptData_exampleContents ▸ holdsData_exampleText⟩)

end BridgeFileStorageAccessor

end HueStream.Storage
