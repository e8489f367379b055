import HueStream.Flow.Message

/-! # What the comparison of bridges detects

`compareBridges` lists nothing exactly when the two bridges agree in what it looks at, the colours of
lights up to a tolerance. The height of a light is not among it, and the tolerance is one between the
two bridges compared: over a chain of comparisons it adds up. -/

namespace HueStream.Flow

open HueStream.Data

variable {σ : BridgeSettings} {a b c : Bridge} {tolerance : ℚ}

/-! ### Agreement -/

/-- What the comparison looks at in a group. -/
structure GroupsAgree (g h : Group) : Prop where
  id : g.id = h.id
  name : g.name = h.name
  active : g.active = h.active
  owner : g.owner = h.owner

/-- What the comparison looks at in a light, the colour up to a tolerance. -/
structure LightsAgree (tolerance : ℚ) (l m : Light) : Prop where
  id : l.id = m.id
  x : l.position.x = m.position.x
  y : l.position.y = m.position.y
  reachable : l.reachable = m.reachable
  red : |l.color.red - m.color.red| ≤ tolerance
  green : |l.color.green - m.color.green| ≤ tolerance
  blue : |l.color.blue - m.color.blue| ≤ tolerance

/-- The fields that identify a bridge and its user. -/
structure IdentityAgrees (a b : Bridge) : Prop where
  id : a.id = b.id
  name : a.name = b.name
  ipAddress : a.ipAddress = b.ipAddress
  modelId : a.modelId = b.modelId
  apiversion : a.apiversion = b.apiversion
  user : a.user = b.user
  clientKey : a.clientKey = b.clientKey

/-- Two bridges agree, the colours of the lights of the selected group up to a tolerance. -/
structure Agrees (σ : BridgeSettings) (tolerance : ℚ) (a b : Bridge) : Prop where
  connected : a.isConnected σ = b.isConnected σ
  streaming : a.isStreaming σ = b.isStreaming σ
  identity : IdentityAgrees a b
  groups : List.Forall₂ GroupsAgree a.groups b.groups
  lights : List.Forall₂ (LightsAgree tolerance) a.getGroupLights b.getGroupLights
  state : b.isStreaming σ = false → isHomeAutomationStateUpdated a.getGroup b.getGroup = false

/-- `0.0274f`. -/
def colorTolerance : ℚ := 274 / 10000

theorem listsDiffer_eq_false {α : Type} {differ : α → α → Bool} {l m : List α} :
    listsDiffer differ l m = false ↔ List.Forall₂ (fun a b => differ a b = false) l m := by
  unfold listsDiffer
  rw [Bool.or_eq_false_iff, decide_eq_false_iff_not, not_not, List.any_eq_false,
    List.forall₂_iff_zip]
  refine and_congr eq_comm ⟨fun h p q hpq => ?_, fun h p hp => ?_⟩
  · simpa using h (p, q) hpq
  · simpa using h hp

theorem areGroupsUpdated_eq_false {l m : List Group} :
    areGroupsUpdated l m = false ↔ List.Forall₂ GroupsAgree l m := by
  unfold areGroupsUpdated
  rw [listsDiffer_eq_false]
  have hgroups : ∀ g h : Group, ((g.id ≠ h.id || g.name ≠ h.name || g.active ≠ h.active ||
      g.owner ≠ h.owner) = false) ↔ GroupsAgree g h := by
    intro g h
    simp only [Bool.or_eq_false_iff, decide_eq_false_iff_not, not_not]
    exact ⟨fun ⟨⟨⟨h₁, h₂⟩, h₃⟩, h₄⟩ => ⟨h₁, h₂, h₃, h₄⟩, fun ⟨h₁, h₂, h₃, h₄⟩ => ⟨⟨⟨h₁, h₂⟩, h₃⟩, h₄⟩⟩
  simp only [hgroups]

theorem isLightUpdated_eq_false {l m : Light} :
    isLightUpdated l m = false ↔ LightsAgree colorTolerance l m := by
  unfold isLightUpdated isPositionLightUpdated isLightColorUpdated colorTolerance
  simp only [Bool.or_eq_false_iff, decide_eq_false_iff_not, not_not, not_lt]
  constructor
  · rintro ⟨⟨⟨hid, hx, hy⟩, ⟨hred, hgreen⟩, hblue⟩, hreachable⟩
    exact ⟨hid, hx, hy, hreachable, hred, hgreen, hblue⟩
  · rintro ⟨hid, hx, hy, hreachable, hred, hgreen, hblue⟩
    exact ⟨⟨⟨hid, hx, hy⟩, ⟨hred, hgreen⟩, hblue⟩, hreachable⟩

theorem areLightsUpdated_eq_false {l m : List Light} :
    areLightsUpdated l m = false ↔ List.Forall₂ (LightsAgree colorTolerance) l m := by
  unfold areLightsUpdated
  rw [listsDiffer_eq_false]
  simp only [isLightUpdated_eq_false]

theorem isBridgeChanged_eq_false : isBridgeChanged a b = false ↔ IdentityAgrees a b := by
  unfold isBridgeChanged
  simp only [Bool.or_eq_false_iff, decide_eq_false_iff_not, not_not]
  constructor
  · rintro ⟨⟨⟨⟨⟨⟨h₁, h₂⟩, h₃⟩, h₄⟩, h₅⟩, h₆⟩, h₇⟩
    exact ⟨h₁, h₂, h₃, h₄, h₅, h₆, h₇⟩
  · rintro ⟨h₁, h₂, h₃, h₄, h₅, h₆, h₇⟩
    exact ⟨⟨⟨⟨⟨⟨h₁, h₂⟩, h₃⟩, h₄⟩, h₅⟩, h₆⟩, h₇⟩

/-! ### Messages -/

theorem mem_compareBridges_connection :
    (.bridgeConnected ∈ compareBridges σ a b ↔ a.isConnected σ = false ∧ b.isConnected σ = true) ∧
    (.bridgeDisconnected ∈ compareBridges σ a b ↔ a.isConnected σ = true ∧ b.isConnected σ = false) := by
  simp [compareBridges]

theorem mem_compareBridges_streaming :
    (.streamingConnected ∈ compareBridges σ a b ↔ a.isStreaming σ = false ∧ b.isStreaming σ = true) ∧
    (.streamingDisconnected ∈ compareBridges σ a b ↔
      a.isStreaming σ = true ∧ b.isStreaming σ = false) := by
  simp [compareBridges]

/-- **Nothing is listed exactly when the bridges agree.** -/
theorem compareBridges_eq_nil : compareBridges σ a b = [] ↔ Agrees σ colorTolerance a b := by
  have hbool : ∀ x y : Bool, (!x && y) = false ∧ (x && !y) = false ↔ x = y := by decide
  have hstate : (!b.isStreaming σ && isHomeAutomationStateUpdated a.getGroup b.getGroup) = false ↔
      (b.isStreaming σ = false → isHomeAutomationStateUpdated a.getGroup b.getGroup = false) := by
    cases b.isStreaming σ <;> simp
  have hnil : ∀ (p : Bool) (id : MessageId), (if p then [id] else []) = [] ↔ p = false := by
    intro p id
    cases p <;> simp
  unfold compareBridges
  simp only [List.append_eq_nil_iff, hnil, isBridgeChanged_eq_false, areGroupsUpdated_eq_false,
    areLightsUpdated_eq_false, hstate]
  constructor
  · rintro ⟨⟨⟨⟨⟨⟨⟨hcon, hdis⟩, hscon⟩, hsdis⟩, hidentity⟩, hgroups⟩, hlights⟩, hstate⟩
    exact ⟨(hbool _ _).mp ⟨hcon, hdis⟩, (hbool _ _).mp ⟨hscon, hsdis⟩, hidentity, hgroups, hlights, hstate⟩
  · intro h
    obtain ⟨hcon, hdis⟩ := (hbool _ _).mpr h.connected
    obtain ⟨hscon, hsdis⟩ := (hbool _ _).mpr h.streaming
    exact ⟨⟨⟨⟨⟨⟨⟨hcon, hdis⟩, hscon⟩, hsdis⟩, h.identity⟩, h.groups⟩, h.lights⟩, h.state⟩

/-! ### Copies and chains -/

theorem LightsAgree.refl (h : 0 ≤ tolerance) (l : Light) : LightsAgree tolerance l l :=
  ⟨rfl, rfl, rfl, rfl, by simpa using h, by simpa using h, by simpa using h⟩

theorem LightsAgree.trans {t t' : ℚ} {l m n : Light} (h : LightsAgree t l m) (h' : LightsAgree t' m n) :
    LightsAgree (t + t') l n := by
  refine ⟨h.id.trans h'.id, h.x.trans h'.x, h.y.trans h'.y, h.reachable.trans h'.reachable, ?_, ?_, ?_⟩
  · exact (abs_sub_le _ m.color.red _).trans (add_le_add h.red h'.red)
  · exact (abs_sub_le _ m.color.green _).trans (add_le_add h.green h'.green)
  · exact (abs_sub_le _ m.color.blue _).trans (add_le_add h.blue h'.blue)

theorem GroupsAgree.trans {g h i : Group} (hgh : GroupsAgree g h) (hhi : GroupsAgree h i) :
    GroupsAgree g i :=
  ⟨hgh.id.trans hhi.id, hgh.name.trans hhi.name, hgh.active.trans hhi.active, hgh.owner.trans hhi.owner⟩

theorem forall₂_trans {α : Type} {R S T : α → α → Prop} {l m n : List α} (h : List.Forall₂ R l m)
    (h' : List.Forall₂ S m n) (htrans : ∀ a b c, R a b → S b c → T a c) : List.Forall₂ T l n := by
  induction h generalizing n with
  | nil =>
    cases h'
    exact .nil
  | cons hab _ ih =>
    cases h' with
    | cons hbc h' => exact .cons (htrans _ _ _ hab hbc) (ih h')

theorem isHomeAutomationStateUpdated_trans {g h i : Option Group}
    (hgh : isHomeAutomationStateUpdated g h = false) (hhi : isHomeAutomationStateUpdated h i = false) :
    isHomeAutomationStateUpdated g i = false := by
  rcases i with _ | i
  · cases g <;> rfl
  rcases h with _ | h
  · cases hhi
  rcases g with _ | g
  · cases hgh
  simp only [isHomeAutomationStateUpdated, Bool.or_eq_false_iff, decide_eq_false_iff_not,
    not_not] at hgh hhi ⊢
  exact ⟨hgh.1.trans hhi.1, hgh.2.trans hhi.2⟩

theorem IdentityAgrees.trans (h : IdentityAgrees a b) (h' : IdentityAgrees b c) : IdentityAgrees a c :=
  ⟨h.id.trans h'.id, h.name.trans h'.name, h.ipAddress.trans h'.ipAddress, h.modelId.trans h'.modelId,
    h.apiversion.trans h'.apiversion, h.user.trans h'.user, h.clientKey.trans h'.clientKey⟩

/-- Agreement over a chain: the tolerances add up. -/
theorem Agrees.trans {t t' : ℚ} (h : Agrees σ t a b) (h' : Agrees σ t' b c) : Agrees σ (t + t') a c := by
  refine ⟨h.connected.trans h'.connected, h.streaming.trans h'.streaming, h.identity.trans h'.identity,
    forall₂_trans h.groups h'.groups fun _ _ _ => GroupsAgree.trans,
    forall₂_trans h.lights h'.lights fun _ _ _ => LightsAgree.trans, fun hc => ?_⟩
  have hb : b.isStreaming σ = false := h'.streaming.trans hc
  exact isHomeAutomationStateUpdated_trans (h.state hb) (h'.state hc)

/-- Bridges that agree up to any tolerance differ in colours at most. -/
theorem Agrees.eq_lightsUpdated (h : Agrees σ tolerance a b) {id : MessageId}
    (hid : id ∈ compareBridges σ a b) : id = .lightsUpdated := by
  have hidentity : isBridgeChanged a b = false := isBridgeChanged_eq_false.mpr h.identity
  have hgroups : areGroupsUpdated a.groups b.groups = false := areGroupsUpdated_eq_false.mpr h.groups
  have hstate : (!b.isStreaming σ && isHomeAutomationStateUpdated a.getGroup b.getGroup) = false := by
    cases hb : b.isStreaming σ with
    | true => rfl
    | false => simpa using h.state hb
  simp only [compareBridges, h.connected, h.streaming, hidentity, hgroups, hstate, Bool.not_and_self,
    Bool.and_not_self, Bool.false_eq_true, if_false, List.nil_append, List.append_nil,
    List.mem_ite_nil_right, List.mem_singleton] at hid
  exact hid.2

/-- A clone differs from its bridge in its zones only. -/
theorem compareBridges_clone : compareBridges σ a a.clone = [] := by
  refine compareBridges_eq_nil.mpr ⟨rfl, rfl, ⟨rfl, rfl, rfl, rfl, rfl, rfl, rfl⟩, ?_, ?_, fun _ => ?_⟩
  · exact List.forall₂_same.mpr fun g _ => ⟨rfl, rfl, rfl, rfl⟩
  · exact List.forall₂_same.mpr fun l _ => .refl (by norm_num [colorTolerance]) l
  · show isHomeAutomationStateUpdated a.getGroup a.getGroup = false
    cases a.getGroup with
    | none => rfl
    | some g => simp [isHomeAutomationStateUpdated]

/-- A bridge whose selected group has one light. -/
def withLight (light : Light) : Bridge :=
  { groups := [{ id := "g", lights := [light] }], selectedGroup := "g" }

end HueStream.Flow
