import Mathlib.Data.List.Nodup
import Mathlib.Tactic.Tauto
import TokenizerHost.Config.Options

set_option autoImplicit false

namespace TokenizerHost

namespace Linker

variable {l l' : Linker} {space name : String} {target : ImportTarget}

theorem define?_known (h : l.resolve? space name ≠ none) : l.define? space name target = none :=
  if_pos (Option.isSome_iff_ne_none.2 h)

theorem define?_new (h : l.resolve? space name = none) :
    l.define? space name target = some ⟨l.defined.insert (space, name) target⟩ :=
  if_neg fun hknown => Option.isSome_iff_ne_none.1 hknown h

theorem resolve?_insert (target : ImportTarget) (h : l.resolve? space name = none) (s n : String)
    (t : ImportTarget) : resolve? ⟨l.defined.insert (space, name) target⟩ s n = some t ↔
      s = space ∧ n = name ∧ t = target ∨ l.resolve? s n = some t := by
  rw [resolve?, Assoc.find?_insert]
  by_cases hsame : (s, n) = (space, name)
  · obtain ⟨rfl, rfl⟩ := Prod.mk.inj hsame
    simp [h, eq_comm]
  · rw [if_neg hsame]
    rw [Prod.mk.injEq] at hsame
    tauto

/-- A linker knows what each of some namespaces provides, and nothing else. -/
def Serves (l : Linker) (spaces : List String) : Prop :=
  ∀ s n t, l.resolve? s n = some t ↔ s ∈ spaces ∧ (n, t) ∈ provided

theorem serves_empty : empty.Serves [] := by
  intro s n t
  simp [resolve?, empty]

theorem addAll (entries : List (String × ImportTarget)) (hnodup : (entries.map (·.1)).Nodup)
    (hnew : ∀ e ∈ entries, l.resolve? space e.1 = none) :
    ∃ l', entries.foldlM (fun l e => l.define? space e.1 e.2) l = some l' ∧
      ∀ s n t, l'.resolve? s n = some t ↔ s = space ∧ (n, t) ∈ entries ∨ l.resolve? s n = some t := by
  induction entries generalizing l with
  | nil => exact ⟨l, rfl, by simp⟩
  | cons e entries ih =>
    rw [List.map_cons, List.nodup_cons] at hnodup
    obtain ⟨hhead, htail⟩ := List.forall_mem_cons.1 hnew
    have hresolve := resolve?_insert e.2 hhead
    have hnew' : ∀ e' ∈ entries,
        resolve? ⟨l.defined.insert (space, e.1) e.2⟩ space e'.1 = none := by
      intro e' he'
      refine Option.eq_none_iff_forall_ne_some.2 fun t ht => ?_
      rcases (hresolve space e'.1 t).1 ht with ⟨-, hname, -⟩ | hold
      · exact hnodup.1 (hname ▸ List.mem_map_of_mem he')
      · exact absurd hold (by simp [htail e' he'])
    obtain ⟨l', hfold, hl'⟩ := ih hnodup.2 hnew'
    refine ⟨l', ?_, fun s n t => ?_⟩
    · rw [List.foldlM_cons, define?_new hhead]
      exact hfold
    · rw [hl', hresolve, List.mem_cons, Prod.ext_iff]
      tauto

theorem nodup_provided : (provided.map (·.1)).Nodup := by decide

theorem addNamespace?_repeated {spaces : List String} (h : l.Serves spaces) (hspace : space ∈ spaces) :
    l.addNamespace? space = none := by
  have hfirst : (Import.wasmExit.name, ImportTarget.host .wasmExit) ∈ provided := by decide
  have hknown : l.resolve? space Import.wasmExit.name ≠ none := by
    rw [(h space _ _).2 ⟨hspace, hfirst⟩]
    exact nofun
  change (l.define? space Import.wasmExit.name (.host .wasmExit)).bind _ = none
  rw [define?_known hknown]
  rfl

theorem addNamespace?_new {spaces : List String} (h : l.Serves spaces) (hspace : space ∉ spaces) :
    ∃ l', l.addNamespace? space = some l' ∧ l'.Serves (spaces ++ [space]) := by
  have hnew : ∀ e ∈ provided, l.resolve? space e.1 = none := fun e _ =>
    Option.eq_none_iff_forall_ne_some.2 fun t ht => hspace ((h space e.1 t).1 ht).1
  obtain ⟨l', hadd, hl'⟩ := addAll provided nodup_provided hnew
  refine ⟨l', hadd, fun s n t => ?_⟩
  rw [hl', h s n t, List.mem_append, List.mem_singleton]
  tauto

theorem foldlM_addNamespace? (more : List String) {spaces : List String} (h : l.Serves spaces)
    (hnodup : spaces.Nodup) :
    (∃ l', more.foldlM addNamespace? l = some l' ∧ l'.Serves (spaces ++ more) ∧
      (spaces ++ more).Nodup) ∨
    more.foldlM addNamespace? l = none ∧ ¬ (spaces ++ more).Nodup := by
  induction more generalizing l spaces with
  | nil =>
    rw [List.append_nil]
    exact .inl ⟨l, rfl, h, hnodup⟩
  | cons space more ih =>
    rw [List.foldlM_cons]
    by_cases hspace : space ∈ spaces
    · rw [addNamespace?_repeated h hspace]
      refine .inr ⟨rfl, fun hall => ?_⟩
      exact (List.nodup_append.1 hall).2.2 space hspace space (List.mem_cons_self ..) rfl
    · obtain ⟨l₁, hadd, h₁⟩ := addNamespace?_new h hspace
      have hnodup₁ : (spaces ++ [space]).Nodup :=
        List.nodup_append.2 ⟨hnodup, List.nodup_singleton space,
          fun s hs t ht hst => hspace (List.mem_singleton.1 ht ▸ hst ▸ hs)⟩
      rw [hadd, Option.bind_eq_bind, Option.bind_some]
      simpa only [List.append_assoc, List.singleton_append] using ih h₁ hnodup₁

theorem mem_provided_iff : (name, target) ∈ provided ↔
    (∃ i : Import, name ∈ i.names ∧ target = .host i) ∨
      name = diagnosticName ∧ target = .diagnostic := by
  have hall : ∀ i, i ∈ Import.all := fun i => by cases i <;> decide
  simp [provided, hall, eq_comm]

theorem ofNamespaces?_cases (spaces : List String) :
    (∃ l, ofNamespaces? spaces = some l ∧ l.Serves spaces ∧ spaces.Nodup) ∨
    ofNamespaces? spaces = none ∧ ¬ spaces.Nodup :=
  foldlM_addNamespace? spaces serves_empty List.nodup_nil

end Linker

/-- The namespaces of a configuration can be linked exactly if none of them is given twice, whatever
the module. Then every import is found under each of its names in each of the namespaces, and the
function for diagnostics beside them; whatever else a module asks for is a trap. -/
theorem links_unless_repeated (c : Config) :
    let spaces := c.guest.importSpace :: c.guest.aliasSpaces
    ((∃ l, Linker.ofNamespaces? c.hostOptions.spaces = some l) ↔ spaces.Nodup) ∧
    (∀ l, Linker.ofNamespaces? c.hostOptions.spaces = some l → ∀ space name target,
      l.resolve? space name = some target ↔ space ∈ spaces ∧
        ((∃ i : Import, name ∈ i.names ∧ target = .host i) ∨
          name = Linker.diagnosticName ∧ target = .diagnostic)) ∧
    ∀ (σ : Type) (m : GuestModule σ) (around : Surroundings),
      GuestModule.load (some m) c.hostOptions around = .error .duplicateNamespace ↔
        ¬ spaces.Nodup := by
  intro spaces
  rcases Linker.ofNamespaces?_cases c.hostOptions.spaces with
    ⟨l, hlinks, hserves, hnodup⟩ | ⟨hrefused, hrepeated⟩
  · refine ⟨iff_of_true ⟨l, hlinks⟩ hnodup, ?_, fun σ m around => ?_⟩
    · rintro l' hl' space name target
      obtain rfl : l = l' := Option.some.inj (hlinks.symm.trans hl')
      rw [hserves space name target, Linker.mem_provided_iff]
      rfl
    · refine iff_of_false (fun hload => ?_) (not_not.2 hnodup)
      simp only [GuestModule.load, hlinks] at hload
      split at hload
      · cases hload
      · split at hload <;> cases hload
  · refine ⟨iff_of_false (fun ⟨l, hl⟩ => ?_) hrepeated, fun l hl => ?_, fun σ m around => ?_⟩
    · cases hrefused.symm.trans hl
    · cases hrefused.symm.trans hl
    · refine iff_of_true ?_ hrepeated
      simp only [GuestModule.load, hrefused]

/-- A configuration that gives its namespace again among the aliases is valid and does not link. -/
theorem repeated_namespace_does_not_link :
    let c : Config := { Config.standard with
      guest := { ModuleSettings.standard with aliasSpaces := ["gojs", "go"] } }
    c.validate = .ok () ∧ Linker.ofNamespaces? c.hostOptions.spaces = none := by
  intro c
  refine ⟨by decide, ?_⟩
  have hrepeated : ¬ c.hostOptions.spaces.Nodup := by decide
  rcases Linker.ofNamespaces?_cases c.hostOptions.spaces with ⟨_, _, _, hnodup⟩ | ⟨hrefused, _⟩
  · exact absurd hnodup hrepeated
  · exact hrefused

end TokenizerHost
