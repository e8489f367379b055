import HueStream.Lib.StableInsert
import HueStream.Scripts.LightScript
import HueStream.Storage.RoundTrip
import Mathlib.Data.Prod.Lex

/-! # What becomes of a script

Adding an action is a stable insertion by layer and start position, so the actions of a layer stand
together, and a script is written as its actions grouped by layer. Reading inserts them again: where the
start positions have come back, into the same order. An `int64_t` comes back as an `int`, an end position
comes back if it is `-1` or not negative, and an effect if the object builder knows it. -/

namespace HueStream.Scripts

open HueStream.Json HueStream.Data HueStream.Storage HueStream.Lib

variable {E : Type}

/-! ### The order of the actions -/

/-- The layer before the start position. -/
def Action.key (a : Action E) : ℕ ×ₗ ℤ := toLex (a.layer.toNat, a.startPosition)

namespace LightScript

theorem addAction_eq (s : LightScript E) (a : Action E) :
    s.addAction a = { s with actions := stableInsert Action.key a s.actions } := by
  have hkey : ∀ b : Action E, decide (a.key < b.key) = (decide (a.layer < b.layer) ||
      (decide (a.startPosition < b.startPosition) && a.layer == b.layer)) := by
    intro b
    rw [Bool.eq_iff_iff]
    simp only [Action.key, Prod.Lex.toLex_lt_toLex, decide_eq_true_eq, Bool.or_eq_true,
      Bool.and_eq_true, beq_iff_eq, UInt32.toNat_inj, UInt32.lt_iff_toNat_lt]
    rw [and_comm (a := a.layer = b.layer)]
  unfold addAction findActionIndex stableInsert
  simp only [hkey]

theorem foldl_addAction (actions : List (Action E)) (s : LightScript E) :
    actions.foldl addAction s =
      { s with actions := actions.foldl (fun l a => stableInsert Action.key a l) s.actions } := by
  induction actions generalizing s with
  | nil => rfl
  | cons a actions ih => rw [List.foldl_cons, List.foldl_cons, addAction_eq, ih]

/-- The actions of a script are sorted, in whatever order they were added. -/
theorem sortedBy_composed (name : String) (length : ℤ) (idealSetup : List Location)
    (actions : List (Action E)) :
    SortedBy Action.key (composed name length idealSetup actions).actions := by
  unfold composed
  rw [foldl_addAction]
  exact SortedBy.foldl List.Pairwise.nil

theorem mem_composed {name : String} {length : ℤ} {idealSetup : List Location}
    {actions : List (Action E)} {a : Action E} :
    a ∈ (composed name length idealSetup actions).actions ↔ a ∈ actions := by
  unfold composed
  rw [foldl_addAction, mem_foldl_stableInsert]
  simp

end LightScript

variable [AnimationEffect E] {atof : String → ℚ}

/-! ### The layers that are written -/

namespace LightScript

/-- The writer has written groups of actions of one layer, and what it holds is of the current one. -/
def Writer.Holds (w : Writer E) (actions : List (Action E)) : Prop :=
  ∃ groups : List (UInt32 × List (Action E)),
    w.layersNode = groups.map (fun g => layerNode g.1 g.2) ∧
    groups.flatMap Prod.snd ++ w.actionList = actions ∧
    (∀ g ∈ groups, ∀ a ∈ g.2, a.layer = g.1) ∧ ∀ a ∈ w.actionList, a.layer = w.currentLayerId

theorem Writer.Holds.flushed {w : Writer E} {actions : List (Action E)} (h : w.Holds actions) :
    ∃ groups : List (UInt32 × List (Action E)),
      w.flushed = groups.map (fun g => layerNode g.1 g.2) ∧ groups.flatMap Prod.snd = actions ∧
      ∀ g ∈ groups, ∀ a ∈ g.2, a.layer = g.1 := by
  obtain ⟨groups, hlayers, hall, hgroups, hcurrent⟩ := h
  by_cases hnone : w.actionList = []
  · refine ⟨groups, by simp [Writer.flushed, hnone, hlayers], ?_, hgroups⟩
    rw [← hall, hnone, List.append_nil]
  · refine ⟨groups ++ [(w.currentLayerId, w.actionList)], ?_, ?_, ?_⟩
    · simp [Writer.flushed, hnone, hlayers]
    · rw [← hall, List.flatMap_append]
      simp
    · intro g hg
      rcases List.mem_append.mp hg with hg | hg
      · exact hgroups g hg
      · obtain rfl := List.mem_singleton.mp hg
        exact hcurrent

theorem Writer.Holds.write {w : Writer E} {actions : List (Action E)} (h : w.Holds actions)
    (a : Action E) : (w.write a).Holds (actions ++ [a]) := by
  unfold Writer.write
  by_cases hlayer : a.layer = w.currentLayerId
  · obtain ⟨groups, hlayers, hall, hgroups, hcurrent⟩ := h
    rw [if_neg (not_not.mpr hlayer)]
    refine ⟨groups, hlayers, by rw [← hall, List.append_assoc], hgroups, fun b hb => ?_⟩
    rcases List.mem_append.mp hb with hb | hb
    · exact hcurrent b hb
    · obtain rfl := List.mem_singleton.mp hb
      exact hlayer
  · obtain ⟨groups, hlayers, hall, hgroups⟩ := h.flushed
    rw [if_pos hlayer]
    refine ⟨groups, hlayers, by rw [hall], hgroups, fun b hb => ?_⟩
    obtain rfl := List.mem_singleton.mp hb
    rfl

/-- **The actions grouped by layer**, each group under its layer. -/
theorem serializeLayers_groups (actions : List (Action E)) :
    ∃ groups : List (UInt32 × List (Action E)),
      serializeLayers actions = groups.map (fun g => layerNode g.1 g.2) ∧
      groups.flatMap Prod.snd = actions ∧ ∀ g ∈ groups, ∀ a ∈ g.2, a.layer = g.1 := by
  have hholds : ∀ (l : List (Action E)) (w : Writer E) (before : List (Action E)),
      w.Holds before → (l.foldl Writer.write w).Holds (before ++ l) := by
    intro l
    induction l with
    | nil => simp
    | cons a l ih =>
      intro w before h
      have := ih _ _ (h.write a)
      rwa [List.append_assoc] at this
  exact (hholds actions {} [] ⟨[], rfl, rfl, by simp, by simp⟩).flushed

/-- The actions of all timelines. -/
def timelines (layers : List JSONNode) : List JSONNode :=
  layers.flatMap fun n => ((n.find "timeline").map JSONNode.asArray).getD []

theorem timelines_serializeLayers (actions : List (Action E)) :
    timelines (serializeLayers actions) = actions.map fun a => .node a.serialize := by
  obtain ⟨groups, hlayers, rfl, -⟩ := serializeLayers_groups actions
  rw [hlayers]
  simp [timelines, layerNode, JSONNode.asArray, List.flatMap_map, List.map_flatMap]

/-- The writer with each action replaced by one of the same members. -/
def Writer.map (f : Action E → Action E) (w : Writer E) : Writer E :=
  { w with actionList := w.actionList.map f }

theorem Writer.flushed_map {f : Action E → Action E} {w : Writer E}
    (h : ∀ a ∈ w.actionList, (f a).serialize = a.serialize) : (w.map f).flushed = w.flushed := by
  have hnode : layerNode w.currentLayerId (w.actionList.map f) =
      layerNode w.currentLayerId w.actionList := by
    simp only [layerNode, serializeList, List.map_map, Function.comp_def]
    rw [List.map_congr_left fun a ha => by rw [h a ha]]
  unfold Writer.flushed Writer.map
  rw [hnode, List.isEmpty_map]

/-- The layers depend only on the layer and the members of each action. -/
theorem serializeLayers_map {f : Action E → Action E} {actions : List (Action E)}
    (h : ∀ a ∈ actions, (f a).layer = a.layer ∧ (f a).serialize = a.serialize) :
    serializeLayers (actions.map f) = serializeLayers actions := by
  have hfold : ∀ (l : List (Action E)) (w : Writer E),
      (∀ a ∈ l, (f a).layer = a.layer ∧ (f a).serialize = a.serialize) →
      (∀ a ∈ w.actionList, (f a).serialize = a.serialize) →
      ((l.map f).foldl Writer.write (w.map f)).flushed = (l.foldl Writer.write w).flushed := by
    intro l
    induction l with
    | nil => exact fun w _ hw => Writer.flushed_map hw
    | cons a l ih =>
      intro w hl hw
      obtain ⟨hlayer, hmembers⟩ := hl a List.mem_cons_self
      have hwrite : (w.map f).write (f a) = (w.write a).map f := by
        unfold Writer.write
        rw [Writer.flushed_map hw, hlayer]
        by_cases hcurrent : a.layer = w.currentLayerId
        · simp [Writer.map, hcurrent]
        · simp [Writer.map, hcurrent]
      rw [List.map_cons, List.foldl_cons, List.foldl_cons, hwrite]
      refine ih _ (fun b hb => hl b (List.mem_cons_of_mem _ hb)) fun b hb => ?_
      unfold Writer.write at hb
      by_cases hcurrent : a.layer = w.currentLayerId
      · rw [if_neg (not_not.mpr hcurrent)] at hb
        rcases List.mem_append.mp hb with hb | hb
        · exact hw b hb
        · obtain rfl := List.mem_singleton.mp hb
          exact hmembers
      · rw [if_pos hcurrent] at hb
        obtain rfl := List.mem_singleton.mp hb
        exact hmembers
  exact hfold actions {} h (by simp)

end LightScript

/-! ### What is read -/

/-- An action as it is read again. -/
def Action.restored (a : Action E) : Action E :=
  { a with
    startPosition := readBack a.startPosition
    endPosition := if 0 ≤ a.endPosition then readBack a.endPosition else -1
    effect := a.effect.bind fun e =>
      AnimationEffect.deserializeFromJson (.node (AnimationEffect.serialize e)) }

theorem Action.find_effect (a : Action E) :
    (JSONNode.node a.serialize).find "Effect" =
      a.effect.map fun e => .node (AnimationEffect.serialize e) := by
  by_cases hend : 0 ≤ a.endPosition <;> cases heffect : a.effect with
  | none => simp [serialize, serializeInt64, serializeAttribute, heffect, hend]
  | some e => simp [serialize, serializeInt64, serializeAttribute, heffect, hend]

theorem Action.find_endPosition (a : Action E) :
    (JSONNode.node a.serialize).find "EndPosition" =
      if 0 ≤ a.endPosition then some (.number (toDouble a.endPosition) (toString a.endPosition))
      else none := by
  by_cases hend : 0 ≤ a.endPosition <;> cases heffect : a.effect with
  | none => simp [serialize, serializeInt64, serializeAttribute, heffect, hend]
  | some e => simp [serialize, serializeInt64, serializeAttribute, heffect, hend]

/-- The layer is not an attribute of the action; it is set by the reader of the layer. -/
theorem Action.build_serialize (a : Action E) :
    build atof (.node a.serialize) = some { a.restored with layer := 0 } := by
  have heffect : deserializeAttribute (.node a.serialize) "Effect"
      AnimationEffect.deserializeFromJson none = a.restored.effect := by
    unfold deserializeAttribute
    rw [find_effect]
    cases h : a.effect with
    | none => simp [restored, h]
    | some e => simp [restored, h]
  have hend : deserializeValue atof (.node a.serialize) "EndPosition" (-1 : ℤ) =
      a.restored.endPosition := by
    unfold deserializeValue
    rw [find_endPosition]
    by_cases h : 0 ≤ a.endPosition
    · simp only [h, if_true, restored]
      rfl
    · simp only [h, if_false, restored]
  have hstart : deserializeValue atof (.node a.serialize) "StartPosition" (0 : ℤ) =
      a.restored.startPosition := by
    rw [deserializeValue_of_find (by simp [serialize, serializeInt64]; rfl)]
    rfl
  have hname : deserializeValue atof (.node a.serialize) "Name" "" = a.name := by
    simp [deserializeValue, serialize]
  rw [build, Storage.build, if_pos (by simp [serialize])]
  unfold deserialize
  rw [heffect, hend, hstart, hname]
  rfl

namespace LightScript

/-- The number of a layer comes back as it was. -/
theorem ofInt_layer (atof : String → ℚ) (layer : UInt32) :
    UInt32.ofInt (Value.ofNode atof (Value.toNode (layer.toNat : ℤ))) = layer := by
  have hlt : layer.toNat < 2 ^ 32 := layer.toNat_lt
  have hmod : (layer.toNat : ℤ).bmod (2 ^ 32) % (2 ^ 32 : ℕ) = layer.toNat := by
    rw [Int.bmod_emod]
    omega
  rw [ofNode_toNode_bmod, UInt32.ofInt]
  rw [show (layer.toNat : ℤ).bmod (2 ^ 32) % 2 ^ 32 = layer.toNat from hmod]
  rw [Int.toNat_natCast, UInt32.ofNat_toNat]

theorem foldlM_deserializeAction (atof : String → ℚ) (currentLayer : ℤ) {actions : List (Action E)}
    (hactions : ∀ a ∈ actions, a.layer = UInt32.ofInt currentLayer) (s : LightScript E) :
    (actions.map fun a => JSONNode.node a.serialize).foldlM (deserializeAction atof currentLayer) s =
      some ((actions.map Action.restored).foldl addAction s) := by
  induction actions generalizing s with
  | nil => rfl
  | cons a actions ih =>
    have hlayer : a.restored.layer = UInt32.ofInt currentLayer := hactions a List.mem_cons_self
    have hread : deserializeAction atof currentLayer s (.node a.serialize) =
        some (s.addAction a.restored) := by
      rw [deserializeAction, Action.build_serialize, Option.map_some, ← hlayer]
    rw [List.map_cons, List.foldlM_cons, hread]
    exact ih (fun b hb => hactions b (List.mem_cons_of_mem _ hb)) (s.addAction a.restored)

/-- A layer is read with all its actions. -/
theorem deserializeLayer_layerNode (atof : String → ℚ) {layer : UInt32} {actions : List (Action E)}
    (hactions : ∀ a ∈ actions, a.layer = layer) (p : ℤ × LightScript E) :
    ∃ currentLayer, deserializeLayer atof p (layerNode layer actions) =
      some (currentLayer, (actions.map Action.restored).foldl addAction p.2) := by
  have htimeline : (layerNode layer actions).find "timeline" =
      some (.array (actions.map fun a => .node a.serialize)) := by
    simp [layerNode]
  have hlayer : deserializeValue atof (layerNode layer actions) "layer" p.1 =
      Value.ofNode atof (Value.toNode (layer.toNat : ℤ)) := by
    simp [deserializeValue, layerNode]
  have hread := foldlM_deserializeAction atof (Value.ofNode atof (Value.toNode (layer.toNat : ℤ)))
    (fun a ha => (hactions a ha).trans (ofInt_layer atof layer).symm) p.2
  refine ⟨Value.ofNode atof (Value.toNode (layer.toNat : ℤ)), ?_⟩
  unfold deserializeLayer
  simp only [htimeline, hlayer, JSONNode.asArray, hread]
  rfl

/-- **Reading the layers adds the actions one by one**, each as it is read again. -/
theorem foldlM_deserializeLayer {groups : List (UInt32 × List (Action E))}
    (hgroups : ∀ g ∈ groups, ∀ a ∈ g.2, a.layer = g.1) (p : ℤ × LightScript E) :
    ((groups.map fun g => layerNode g.1 g.2).foldlM (deserializeLayer atof) p).map Prod.snd =
      some (((groups.flatMap Prod.snd).map Action.restored).foldl addAction p.2) := by
  induction groups generalizing p with
  | nil => rfl
  | cons g groups ih =>
    obtain ⟨currentLayer, hread⟩ :=
      deserializeLayer_layerNode atof (hgroups g List.mem_cons_self) p
    rw [List.map_cons, List.foldlM_cons, hread]
    simp only [Option.bind_eq_bind, Option.bind_some]
    rw [ih fun g hg => hgroups g (List.mem_cons_of_mem _ hg)]
    rw [List.flatMap_cons, List.map_append, List.foldl_append]

theorem deserializeLayers_serializeLayers {n : JSONNode} {actions : List (Action E)}
    (hfind : n.find "layers" = some (.array (serializeLayers actions))) (s : LightScript E) :
    deserializeLayers atof n s = some ((actions.map Action.restored).foldl addAction s) := by
  obtain ⟨groups, hlayers, rfl, hgroups⟩ := serializeLayers_groups actions
  unfold deserializeLayers
  rw [hfind, hlayers]
  exact foldlM_deserializeLayer hgroups (0, s)

theorem find_layers (s : LightScript E) :
    (JSONNode.node s.serialize).find "layers" = some (.array (serializeLayers s.actions)) := by
  by_cases hempty : s.idealSetup = []
  · simp [serialize, serializeInt64, hempty]
  · simp [serialize, serializeInt64, hempty]

/-- A script as it is read again. -/
def restored (s : LightScript E) : LightScript E :=
  composed s.name (readBack s.length) s.idealSetup (s.actions.map Action.restored)

theorem deserialize_serialize (s : LightScript E) :
    deserialize atof (.node s.serialize) {} = some s.restored := by
  have hversion : deserializeValue atof (.node s.serialize) "VerionMajor" (0 : ℤ) = 0 := by
    rw [deserializeValue_of_find (c := Value.toNode (0 : ℤ)) (by simp [serialize])]
    exact ofNode_toNode_int ⟨by norm_num, by norm_num⟩
  have hname : deserializeValue atof (.node s.serialize) "Name" "" = s.name := by
    simp [deserializeValue, serialize]
  have hlength : deserializeValue atof (.node s.serialize) "Length" (0 : ℤ) = readBack s.length := by
    by_cases hempty : s.idealSetup = []
    · rw [deserializeValue_of_find (by simp [serialize, serializeInt64, hempty]; rfl)]
      rfl
    · rw [deserializeValue_of_find (by simp [serialize, serializeInt64, hempty]; rfl)]
      rfl
  have hsetup : deserializeList (.node s.serialize) "IdealSetup" (Location.build atof) =
      some s.idealSetup := by
    by_cases hempty : s.idealSetup = []
    · simp [deserializeList, serialize, serializeInt64, hempty]
    · have hread : deserializeList (.node s.serialize) "IdealSetup" (Location.build atof) =
          some (s.idealSetup.map id) :=
        deserializeList_of_find Location.serialize (by simp [serialize, hempty])
          fun l _ => l.build_serialize
      rwa [List.map_id] at hread
  unfold deserialize
  rw [if_neg (by rw [hversion]; exact lt_irrefl 0), hsetup]
  simp only [Option.bind_eq_bind, Option.bind_some, hname, hlength]
  exact deserializeLayers_serializeLayers s.find_layers _

end LightScript

/-! ### What comes back -/

/-- The same action, but for the effect. -/
structure Action.Same (a b : Action E) : Prop where
  name : a.name = b.name
  layer : a.layer = b.layer
  startPosition : a.startPosition = b.startPosition
  endPosition : a.endPosition = b.endPosition

/-- The positions are such that they come back, and the object builder makes of what the effect writes an
effect that writes the same. -/
structure Action.ComesBack (a : Action E) : Prop where
  startPosition : IsInt a.startPosition
  endPosition : a.endPosition = -1 ∨ 0 ≤ a.endPosition ∧ a.endPosition < 2 ^ 31
  effect : ∀ e ∈ a.effect, ∃ e' : E,
    AnimationEffect.deserializeFromJson (.node (AnimationEffect.serialize e)) = some e' ∧
    AnimationEffect.serialize e' = AnimationEffect.serialize e

namespace Action

theorem ComesBack.restored_endPosition {a : Action E} (h : a.ComesBack) :
    a.restored.endPosition = a.endPosition := by
  unfold restored
  rcases h.endPosition with hend | ⟨hlow, hhigh⟩
  · simp [hend]
  · simp only [hlow, if_true]
    exact readBack_eq ⟨by omega, hhigh⟩

theorem ComesBack.same {a : Action E} (h : a.ComesBack) : a.restored.Same a :=
  ⟨rfl, rfl, readBack_eq h.startPosition, h.restored_endPosition⟩

theorem ComesBack.serialize_restored {a : Action E} (h : a.ComesBack) :
    a.restored.serialize = a.serialize := by
  have heffect : serializeAttribute "Effect" AnimationEffect.serialize a.restored.effect =
      serializeAttribute "Effect" AnimationEffect.serialize a.effect := by
    cases heq : a.effect with
    | none => simp [restored, heq]
    | some e =>
      obtain ⟨e', hbuild, hwrite⟩ := h.effect e heq
      simp [restored, heq, hbuild, serializeAttribute, hwrite]
  have hstart : a.restored.startPosition = a.startPosition := h.same.startPosition
  unfold serialize
  rw [heffect, hstart, h.restored_endPosition]
  rfl

/-- The converse, from what is read and written again. -/
theorem comesBack_of_restored {a : Action E} (hstart : IsInt a.startPosition)
    (hend : a.restored.endPosition = a.endPosition)
    (hwrite : JSONNode.node a.restored.serialize = .node a.serialize) : a.ComesBack := by
  refine ⟨hstart, ?_, fun e he => ?_⟩
  · by_cases hlow : 0 ≤ a.endPosition
    · have hread : a.restored.endPosition = readBack a.endPosition := by simp [restored, hlow]
      have hint := isInt_readBack a.endPosition
      rw [← hread, hend] at hint
      exact .inr ⟨hlow, hint.2⟩
    · have hread : a.restored.endPosition = -1 := by simp [restored, hlow]
      exact .inl (hend.symm.trans hread)
  · have hfind : a.restored.effect.map (fun e => JSONNode.node (AnimationEffect.serialize e)) =
        a.effect.map fun e => .node (AnimationEffect.serialize e) := by
      rw [← find_effect, ← find_effect, hwrite]
    have heffect : a.restored.effect =
        AnimationEffect.deserializeFromJson (.node (AnimationEffect.serialize e)) := by
      simp [restored, Option.mem_def.mp he]
    rw [heffect, Option.mem_def.mp he, Option.map_some, Option.map_eq_some_iff] at hfind
    obtain ⟨e', hbuild, hnode⟩ := hfind
    exact ⟨e', hbuild, JSONNode.node.inj hnode⟩

end Action

namespace LightScript

/-- With start positions that come back, the actions are read in the order they had. -/
theorem restored_actions {s : LightScript E} (hsorted : SortedBy Action.key s.actions)
    (hstart : ∀ a ∈ s.actions, IsInt a.startPosition) :
    s.restored.actions = s.actions.map Action.restored := by
  have hkey : ∀ a ∈ s.actions, a.restored.key = a.key := by
    intro a ha
    have : a.restored.startPosition = a.startPosition := readBack_eq (hstart a ha)
    unfold Action.key
    rw [this]
    rfl
  have hrestored : SortedBy Action.key (s.actions.map Action.restored) := by
    unfold SortedBy at hsorted ⊢
    rw [List.pairwise_map]
    refine hsorted.imp_of_mem fun {a b} ha hb hle => ?_
    rwa [hkey a ha, hkey b hb]
  unfold restored composed
  rw [foldl_addAction]
  exact SortedBy.foldl_stableInsert (l := []) hrestored

/-- What writing a script and reading it into a fresh one is to keep. -/
def RoundTrips (atof : String → ℚ) (s : LightScript E) : Prop :=
  ∃ s', deserialize atof (.node s.serialize) {} = some s' ∧ s'.name = s.name ∧ s'.length = s.length ∧
    s'.idealSetup = s.idealSetup ∧ List.Forall₂ Action.Same s'.actions s.actions ∧
    s'.serialize = s.serialize

theorem restored_idealSetup (s : LightScript E) : s.restored.idealSetup = s.idealSetup := by
  unfold restored composed
  rw [foldl_addAction]

theorem restored_length (s : LightScript E) : s.restored.length = readBack s.length := by
  unfold restored composed
  rw [foldl_addAction]

theorem restored_name (s : LightScript E) : s.restored.name = s.name := by
  unfold restored composed
  rw [foldl_addAction]

theorem roundTrips_of_comesBack {s : LightScript E} (hsorted : SortedBy Action.key s.actions)
    (hlength : IsInt s.length) (hactions : ∀ a ∈ s.actions, a.ComesBack) : s.RoundTrips atof := by
  have hread := restored_actions hsorted fun a ha => (hactions a ha).startPosition
  refine ⟨s.restored, deserialize_serialize s, s.restored_name, ?_, s.restored_idealSetup, ?_, ?_⟩
  · rw [restored_length, readBack_eq hlength]
  · rw [hread, List.forall₂_map_left_iff, List.forall₂_same]
    exact fun a ha => (hactions a ha).same
  · have hlayers : serializeLayers s.restored.actions = serializeLayers s.actions := by
      rw [hread]
      exact serializeLayers_map fun a ha => ⟨rfl, (hactions a ha).serialize_restored⟩
    unfold serialize
    rw [hlayers, restored_name, restored_idealSetup, restored_length, readBack_eq hlength]

/-- Every start position that is read is an `int`. -/
theorem isInt_of_mem_restored {s : LightScript E} {a : Action E} (h : a ∈ s.restored.actions) :
    IsInt a.startPosition := by
  rw [restored, mem_composed, List.mem_map] at h
  obtain ⟨b, -, rfl⟩ := h
  exact isInt_readBack _

theorem comesBack_of_roundTrips {s : LightScript E} (hsorted : SortedBy Action.key s.actions)
    (h : s.RoundTrips atof) : IsInt s.length ∧ ∀ a ∈ s.actions, a.ComesBack := by
  obtain ⟨s', hs', -, hlength, -, hsame, hwrite⟩ := h
  obtain rfl : s.restored = s' := Option.some.inj ((deserialize_serialize s).symm.trans hs')
  have hstart : ∀ a ∈ s.actions, IsInt a.startPosition := by
    have hstarts : s.restored.actions.map Action.startPosition =
        s.actions.map Action.startPosition := by
      rw [← List.forall₂_eq_eq_eq, List.forall₂_map_left_iff, List.forall₂_map_right_iff]
      exact hsame.imp fun a b h => h.startPosition
    intro a ha
    have hmem : a.startPosition ∈ s.actions.map Action.startPosition := List.mem_map_of_mem ha
    rw [← hstarts, List.mem_map] at hmem
    obtain ⟨b, hb, hba⟩ := hmem
    rw [← hba]
    exact isInt_of_mem_restored hb
  have hread := restored_actions hsorted hstart
  rw [hread, List.forall₂_map_left_iff, List.forall₂_same] at hsame
  have hlayers : serializeLayers s.restored.actions = serializeLayers s.actions := by
    have := s.restored.find_layers
    rw [hwrite, find_layers] at this
    exact (JSONNode.array.inj (Option.some.inj this)).symm
  have hnodes : (s.actions.map Action.restored).map (fun a => JSONNode.node a.serialize) =
      s.actions.map fun a => .node a.serialize := by
    rw [← timelines_serializeLayers, ← timelines_serializeLayers, ← hread, hlayers]
  rw [List.map_map, List.map_inj_left] at hnodes
  refine ⟨?_, fun a ha => ?_⟩
  · rw [← hlength, restored_length]
    exact isInt_readBack s.length
  · exact Action.comesBack_of_restored (hstart a ha) (hsame a ha).endPosition (hnodes a ha)

end LightScript

/-- **When a script survives being written and read.** Exactly when its length and all start positions are
values of `int`, every end position is `-1` or a value of `int` that is not negative, and every effect is
one that the object builder makes again. -/
theorem script_round_trip (atof : String → ℚ) (name : String) (length : ℤ) (idealSetup : List Location)
    (actions : List (Action E)) :
    (LightScript.composed name length idealSetup actions).RoundTrips atof ↔
      IsInt length ∧ ∀ a ∈ actions, a.ComesBack := by
  have hsorted := LightScript.sortedBy_composed name length idealSetup actions
  have hlength : (LightScript.composed name length idealSetup actions).length = length := by
    unfold LightScript.composed
    rw [LightScript.foldl_addAction]
  have hiff : (LightScript.composed name length idealSetup actions).RoundTrips atof ↔
      IsInt (LightScript.composed name length idealSetup actions).length ∧
        ∀ a ∈ (LightScript.composed name length idealSetup actions).actions, a.ComesBack :=
    ⟨LightScript.comesBack_of_roundTrips hsorted,
      fun h => LightScript.roundTrips_of_comesBack hsorted h.1 h.2⟩
  rw [hiff, hlength]
  simp only [LightScript.mem_composed]

/-- For actions without an effect. -/
instance : AnimationEffect Empty := ⟨Empty.elim, fun _ => none⟩

/-- A script of `2 ^ 31` milliseconds, one with an action that starts then, and one with an action that
ends before the start of the script. -/
theorem exists_script_not_round_trip :
    ¬ (LightScript.composed "" (2 ^ 31) [] ([] : List (Action Empty))).RoundTrips (fun _ => 0) ∧
    ¬ (LightScript.composed "" 0 []
      [({ startPosition := 2 ^ 31 } : Action Empty)]).RoundTrips (fun _ => 0) ∧
    ¬ (LightScript.composed "" 0 []
      [({ endPosition := -5 } : Action Empty)]).RoundTrips (fun _ => 0) := by
  refine ⟨fun h => ?_, fun h => ?_, fun h => ?_⟩
  · obtain ⟨⟨-, hlt⟩, -⟩ :=
      LightScript.comesBack_of_roundTrips (LightScript.sortedBy_composed "" (2 ^ 31) [] []) h
    exact absurd hlt (by decide)
  · obtain ⟨-, hactions⟩ := LightScript.comesBack_of_roundTrips (LightScript.sortedBy_composed _ _ _ _) h
    obtain ⟨-, hlt⟩ := (hactions _ (LightScript.mem_composed.mpr List.mem_cons_self)).startPosition
    exact absurd hlt (by decide)
  · obtain ⟨-, hactions⟩ := LightScript.comesBack_of_roundTrips (LightScript.sortedBy_composed _ _ _ _) h
    have hend := (hactions _ (LightScript.mem_composed.mpr List.mem_cons_self)).endPosition
    exact absurd hend (by decide)

end HueStream.Scripts
