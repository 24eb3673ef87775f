import TokenizerHost.Config.Layers
import TokenizerHost.Proofs.Run.Dispatch
import TokenizerHost.Proofs.Toml.Merging

set_option autoImplicit false

namespace TokenizerHost

namespace LayerFile

variable {f : LayerFile} {t : Toml}

theorem parse?_of_tree? (h : f.tree? = .ok (some t)) : ∃ text, Toml.parse? text = some t := by
  unfold tree? at h
  split at h
  · cases h
  · cases h
  · split at h
    · cases h
    next text _ =>
      split at h
      · cases h
      · split at h
        next hparse =>
          cases h
          exact ⟨text, hparse⟩
        · cases h

theorem tree?_of_tree (h : f.tree = .ok t) : f.tree? = .ok (some t) := by
  obtain ⟨found, htree, h⟩ := except_bind_ok h
  cases found with
  | none => cases h
  | some t' =>
    cases h
    exact htree

theorem fromUTF8?_toUTF8 (text : String) : String.fromUTF8? text.toUTF8 = some text :=
  dif_pos text.isValidUTF8

theorem tree_of_text {path text : String} (hsize : text.toUTF8.size ≤ maxDocumentSize)
    (hparse : Toml.parse? text = some t) : tree ⟨path, .ok text.toUTF8⟩ = .ok t := by
  have htree : tree? ⟨path, .ok text.toUTF8⟩ = .ok (some t) := by
    simp only [tree?, fromUTF8?_toUTF8, gt_iff_lt, Nat.not_lt.2 hsize, if_false, hparse]
  rw [tree, htree]
  rfl

end LayerFile

namespace Override

variable {vars : Environment} {o : Override} {value : String}

def value? (o : Override) (vars : Environment) : Option String :=
  (vars.find? o.name).filter (· ≠ "")

theorem apply_of_unset (h : o.value? vars = none) (state : Toml × Nat) : o.apply vars state = state := by
  unfold value? at h
  unfold apply
  split
  · rfl
  · rfl
  next value hempty hvalue =>
    rw [hvalue, Option.filter_some, if_pos (by simpa using hempty)] at h
    cases h

theorem apply_of_set (h : o.value? vars = some value) (state : Toml × Nat) :
    o.apply vars state =
      ((state.1.setIn o.sectionName o.key (.string value)).1,
        if (state.1.setIn o.sectionName o.key (.string value)).2 then state.2 + 1 else state.2) := by
  unfold value? at h
  rw [Option.filter_eq_some_iff] at h
  unfold apply
  split
  next hunset => simp [hunset] at h
  next hempty => simp [hempty] at h
  next hvalue =>
    cases hvalue.symm.trans h.1
    rfl

theorem applyAll_of_unset (h : ∀ o ∈ overrides, o.value? vars = none) (tree : Toml) :
    applyAll vars tree = (tree, 0) := by
  have hfold (os : List Override) (hos : ∀ o ∈ os, o.value? vars = none) (state : Toml × Nat) :
      os.foldl (fun state o => o.apply vars state) state = state := by
    induction os with
    | nil => rfl
    | cons o rest ih =>
      rw [List.forall_mem_cons] at hos
      rw [List.foldl_cons, apply_of_unset hos.1]
      exact ih hos.2
  exact hfold overrides h (tree, 0)

end Override

namespace Config

variable {user : LayerFile} {explicit : Option LayerFile} {vars : Environment}

def layeredTree (user : LayerFile) (explicit : Option LayerFile) : Except ConfigError Toml := do
  let standard ← standardLayer
  let userTree ← user.tree?
  let explicitTree ← explicit.mapM LayerFile.tree
  return (userTree.toList ++ explicitTree.toList).foldl Toml.merge standard

theorem ofTree_eq_ok_iff {path : String} {t : Toml} {c : Config} :
    ofTree path t = .ok c ↔ ofJson? t.toJson = some c ∧ c.validate = .ok () := by
  unfold ofTree
  cases ofJson? t.toJson with
  | none => simp [throw, throwThe, MonadExceptOf.throw]
  | some c' =>
    constructor
    · intro h
      obtain ⟨_, hvalid, h⟩ := except_bind_ok h
      cases h
      exact ⟨rfl, hvalid⟩
    · rintro ⟨⟨⟩, hvalid⟩
      dsimp only
      rw [hvalid]
      rfl

theorem exists_layeredTree {resolved : ResolvedConfig} (h : loadLayers user explicit vars = .ok resolved) :
    ∃ tree, layeredTree user explicit = .ok tree ∧
      ofJson? (Override.applyAll vars tree).1.toJson = some resolved.config ∧
      resolved.overrideCount = (Override.applyAll vars tree).2 := by
  unfold loadLayers at h
  obtain ⟨standard, hstandard, h⟩ := except_bind_ok h
  obtain ⟨userTree, huser, h⟩ := except_bind_ok h
  obtain ⟨explicitTree, hexplicit, h⟩ := except_bind_ok h
  obtain ⟨config, hconfig, h⟩ := except_bind_ok h
  cases h
  refine ⟨_, ?_, (ofTree_eq_ok_iff.1 hconfig).1, rfl⟩
  rw [layeredTree, hstandard, huser, hexplicit]
  rfl

/-- A tree that documents come to: its keys are distinct, and it is a table or a moment. -/
structure OfDocuments (t : Toml) : Prop where
  distinct : t.Distinct
  shape : (∃ es, t = .table es) ∨ ∃ moment, t = .moment moment

theorem OfDocuments.of_parse? {text : String} {t : Toml} (h : Toml.parse? text = some t) : OfDocuments t :=
  ⟨Toml.distinct_of_parse? h, Toml.table_or_moment_of_parse? h⟩

theorem OfDocuments.merge {base above : Toml} (hbase : OfDocuments base) (habove : OfDocuments above) :
    OfDocuments (base.merge above) := by
  refine ⟨habove.distinct.merge base hbase.distinct, ?_⟩
  obtain ⟨upper, rfl⟩ | ⟨moment, rfl⟩ := habove.shape
  · obtain ⟨lower, rfl⟩ | ⟨moment, rfl⟩ := hbase.shape
    · exact .inl ⟨_, rfl⟩
    · exact .inl ⟨_, rfl⟩
  · exact .inr ⟨_, rfl⟩

theorem OfDocuments.foldl_merge {base : Toml} {layers : List Toml} (hbase : OfDocuments base)
    (hlayers : ∀ t ∈ layers, OfDocuments t) : OfDocuments (layers.foldl Toml.merge base) := by
  induction layers generalizing base with
  | nil => exact hbase
  | cons t rest ih =>
    rw [List.forall_mem_cons] at hlayers
    exact ih (hbase.merge hlayers.1) hlayers.2

theorem parse?_of_standardLayer {t : Toml} (h : standardLayer = .ok t) :
    Toml.parse? standardDocument = some t := by
  rw [standardLayer] at h
  cases hparse : Toml.parse? standardDocument with
  | none => simp [hparse] at h
  | some t' =>
    rw [hparse] at h
    cases h
    rfl

def layerTrees (user : LayerFile) (explicit : Option LayerFile) : Except ConfigError (List Toml) := do
  let standard ← standardLayer
  let userTree ← user.tree?
  let explicitTree ← explicit.mapM LayerFile.tree
  return standard :: (userTree.toList ++ explicitTree.toList)

theorem exists_layerTrees {tree : Toml} (h : layeredTree user explicit = .ok tree) :
    ∃ standard more, standardLayer = .ok standard ∧ layerTrees user explicit = .ok (standard :: more) ∧
      tree = more.foldl Toml.merge standard ∧ ∀ t ∈ more, OfDocuments t := by
  obtain ⟨standard, hstandard, h⟩ := except_bind_ok h
  obtain ⟨userTree, huser, h⟩ := except_bind_ok h
  obtain ⟨explicitTree, hexplicit, h⟩ := except_bind_ok h
  cases h
  refine ⟨standard, userTree.toList ++ explicitTree.toList, hstandard, ?_, rfl,
    List.forall_mem_append.2 ⟨?_, ?_⟩⟩
  · rw [layerTrees, hstandard, huser, hexplicit]
    rfl
  · intro t ht
    rw [Option.mem_toList] at ht
    cases ht
    obtain ⟨text, htext⟩ := LayerFile.parse?_of_tree? huser
    exact .of_parse? htext
  · intro t ht
    rw [Option.mem_toList] at ht
    cases ht
    cases explicit with
    | none => cases hexplicit
    | some f =>
      obtain ⟨t', htree, hsome⟩ := except_bind_ok hexplicit
      cases hsome
      obtain ⟨text, htext⟩ := LayerFile.parse?_of_tree? (LayerFile.tree?_of_tree htree)
      exact .of_parse? htext

theorem ofDocuments_layeredTree {tree : Toml} (h : layeredTree user explicit = .ok tree) :
    OfDocuments tree := by
  obtain ⟨standard, more, hstandard, -, rfl, hmore⟩ := exists_layerTrees h
  exact .foldl_merge (.of_parse? (parse?_of_standardLayer hstandard)) hmore

end Config

end TokenizerHost
