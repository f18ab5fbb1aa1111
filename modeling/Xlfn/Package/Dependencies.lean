import Xlfn.Package.Forwarding

/-!
# Xlfn — the dependency closure of a package

What the images of a package import has to be on every machine, declared external, or exported by
an image of the package. The images are walked with a stack of iterators, over a graph that may
have cycles.

* `validateDependencyGraph` — the code.
* `Closed` — an image whose imports are all there.
-/

namespace Xlfn.Package

open List Prod

-- ---- The code.

inductive DependencyError where
  | bundledAndExternal (name : Name)
  | basename (error : WindowsBasenameError)
  | notDll (name : Name)
  | internal (name : Name)
  | unresolved (chain : List Name) (imported : Name)
  | targetUnresolved (chain : List Name) (imported : Name) (target : ImportTarget)
  | forward (error : ForwardError)

/-- `".dll"`. -/
def dllExtension : Name := ['.', 'd', 'l', 'l']

/-- `windows_dll_name_key`. -/
def windowsDllNameKey (name : Name) : Except DependencyError Name :=
  match windowsNameKey name with
  | .error error => .error (.basename error)
  | .ok key => if dllExtension <:+ toAsciiLowercase name then .ok key else .error (.notDll name)

/-- An imported library with what is imported from it. -/
abbrev Import := Name × Option (List ImportTarget)

def PeInfo.dependencyImports (image : PeInfo) : List Import :=
  image.imports.map (fun name => (name, image.importTargets.lookup name)) ++
    image.delayImports.map fun name => (name, image.delayImportTargets.lookup name)

def PeInfo.hasImportTarget (image : PeInfo) : ImportTarget → Bool
  | .name name => image.exports.contains name
  | .ordinal ordinal => image.exportedOrdinals.contains ordinal

variable (images : Images) (externalImports : List Name)

/-- The names a chain of images is shown by. -/
def displays (stack : List (Name × List Import)) : List Name :=
  stack.reverse.filterMap fun frame => (images.lookup frame.1).map Prod.fst

/-- One import: the bundled image it names, or nothing where it needs none. -/
def importedImage (chain : List Name) (imported : Import) :
    Except DependencyError (Option (Name × PeInfo)) := do
  let key ← windowsDllNameKey imported.1
  if isSystem key ∨ key ∈ externalImports then
    return none
  match images.lookup key with
  | none => .error (.unresolved chain key)
  | some (display, image) =>
    match (imported.2.getD []).find? fun target => ¬image.hasImportTarget target with
    | some target => .error (.targetUnresolved chain display target)
    | none => return some (key, image)

variable {images externalImports}

/-- What an import needs: a library of the system, an external one, or an image with the targets. -/
def Resolved (images : Images) (externalImports : List Name) (imported : Import) : Prop :=
  ∃ key, windowsDllNameKey imported.1 = .ok key ∧
    (isSystem key = true ∨ key ∈ externalImports ∨ ∃ display image,
      images.lookup key = some (display, image) ∧
        ∀ targets, imported.2 = some targets → ∀ target ∈ targets,
          image.hasImportTarget target = true)

/-- **What a successful import says.** -/
theorem of_importedImage {chain : List Name} {imported : Import} {found : Option (Name × PeInfo)}
    (h : importedImage images externalImports chain imported = .ok found) :
    Resolved images externalImports imported ∧
      ∀ key image, found = some (key, image) →
        ∃ display, images.lookup key = some (display, image) := by
  unfold importedImage at h
  cases hkey : windowsDllNameKey imported.1 with
  | error error =>
    rw [hkey] at h
    cases h
  | ok key =>
    rw [hkey] at h
    simp only [Bind.bind, Except.bind] at h
    split at h
    · next hlibrary =>
      cases h
      refine ⟨⟨key, hkey, ?_⟩, nofun⟩
      rcases hlibrary with hsystem | hexternal
      · exact .inl hsystem
      · exact .inr (.inl hexternal)
    · cases himage : images.lookup key with
      | none =>
        rw [himage] at h
        cases h
      | some entry =>
        obtain ⟨display, image⟩ := entry
        simp only [himage] at h
        split at h
        · cases h
        · next hnone =>
          cases h
          rw [find?_eq_none] at hnone
          refine ⟨⟨key, hkey, .inr (.inr ⟨display, image, himage, ?_⟩)⟩, ?_⟩
          · intro targets htargets target hmem
            simpa using hnone target (by rw [htargets]; exact hmem)
          · rintro _ _ ⟨⟩
            exact ⟨display, himage⟩

theorem Resolved.ok (chain : List Name) {imported : Import}
    (h : Resolved images externalImports imported) :
    ∃ found, importedImage images externalImports chain imported = .ok found := by
  obtain ⟨key, hkey, hlibrary⟩ := h
  unfold importedImage
  rw [hkey]
  simp only [Bind.bind, Except.bind]
  split
  · exact ⟨none, rfl⟩
  · next hnot =>
    rcases hlibrary with hsystem | hexternal | ⟨display, image, himage, htargets⟩
    · exact absurd (.inl hsystem) hnot
    · exact absurd (.inr hexternal) hnot
    · have hnone : (imported.2.getD []).find? (fun target => ¬image.hasImportTarget target) =
          none := by
        rw [find?_eq_none]
        intro target hmem
        cases himports : imported.2 with
        | none =>
          rw [himports] at hmem
          cases hmem
        | some targets =>
          rw [himports] at hmem
          simpa using htargets targets himports target hmem
      simp only [himage, hnone]
      exact ⟨_, rfl⟩

-- ---- The walk.

variable (images externalImports)

/-- The loop of `validate_dependency_node`: the images that were visited in the end. -/
def walk (visited : List Name) : List (Name × List Import) → Except DependencyError (List Name)
  | [] => .ok visited
  | (_, []) :: stack => walk visited stack
  | (name, imported :: imports) :: stack =>
    match _ : importedImage images externalImports
        (displays images ((name, imports) :: stack)) imported with
    | .error error => .error error
    | .ok none => walk visited ((name, imports) :: stack)
    | .ok (some (key, image)) =>
      if key ∈ visited then walk visited ((name, imports) :: stack)
      else walk (key :: visited) ((key, image.dependencyImports) :: (name, imports) :: stack)
termination_by stack =>
  (unseen (images.map fst) visited, (stack.map fun frame => frame.2.length + 1).sum)
decreasing_by
  · exact .right _ (by simp)
  · exact .right _ (by simp)
  · exact .right _ (by simp)
  · refine .left _ _ (unseen_lt ?_ ‹_› mem_cons_self fun _ => mem_cons_of_mem _)
    obtain ⟨display, himage⟩ := (of_importedImage ‹_›).2 _ _ rfl
    exact mem_map_of_mem (mem_of_lookup himage)

def validateDependencyNode (visited : List Name) (current : Name) :
    Except DependencyError (List Name) :=
  if current ∈ visited then .ok visited
  else
    match images.lookup current with
    | none => .error (.internal current)
    | some (_, image) =>
      walk images externalImports (current :: visited) [(current, image.dependencyImports)]

/-- The roots, one after the other. -/
def validateRoots (visited : List Name) : List Name → Except DependencyError Unit
  | [] => .ok ()
  | root :: roots =>
    match validateDependencyNode images externalImports visited root with
    | .error error => .error error
    | .ok visited => validateRoots visited roots

def validateDependencyGraph : Except DependencyError Unit :=
  match externalImports.find? fun name => name ∈ images.map Prod.fst with
  | some name => .error (.bundledAndExternal name)
  | none =>
    match validateRoots images externalImports [] (images.map Prod.fst) with
    | .error error => .error error
    | .ok () => (validateForwardedExports images externalImports).mapError .forward

variable {images externalImports}

/-- An image whose imports are all there. -/
def Closed (images : Images) (externalImports : List Name) (name : Name) : Prop :=
  ∃ display image, images.lookup name = some (display, image) ∧
    ∀ imported ∈ image.dependencyImports, Resolved images externalImports imported

/-- A successful walk has resolved every import on the stack, and visited only closed images. -/
theorem of_walk {visited visited' : List Name} {stack : List (Name × List Import)}
    (h : walk images externalImports visited stack = .ok visited') :
    (∀ frame ∈ stack, ∀ imported ∈ frame.2, Resolved images externalImports imported) ∧
      (∀ name ∈ visited, name ∈ visited') ∧
      ∀ name ∈ visited', name ∈ visited ∨ Closed images externalImports name := by
  fun_induction walk images externalImports visited stack with
  | case1 visited =>
    cases h
    exact ⟨fun frame hframe => absurd hframe not_mem_nil, fun _ => id, fun _ => .inl⟩
  | case2 visited name stack ih =>
    obtain ⟨hstack, hvisited⟩ := ih h
    refine ⟨?_, hvisited⟩
    rw [forall_mem_cons]
    exact ⟨fun _ h => absurd h not_mem_nil, hstack⟩
  | case3 => cases h
  | case4 visited name imported imports stack hfound ih
  | case5 visited name imported imports stack key image hfound hseen ih =>
    obtain ⟨hstack, hvisited⟩ := ih h
    rw [forall_mem_cons] at hstack ⊢
    rw [forall_mem_cons]
    exact ⟨⟨⟨(of_importedImage hfound).1, hstack.1⟩, hstack.2⟩, hvisited⟩
  | case6 visited name imported imports stack key image hfound hnew ih =>
    obtain ⟨hstack, hkeep, hclosed⟩ := ih h
    rw [forall_mem_cons, forall_mem_cons] at hstack
    rw [forall_mem_cons, forall_mem_cons]
    refine ⟨⟨⟨(of_importedImage hfound).1, hstack.2.1⟩, hstack.2.2⟩,
      fun name hname => hkeep name (mem_cons_of_mem _ hname), fun name hname => ?_⟩
    rcases hclosed name hname with hmem | hclosed
    · rcases mem_cons.mp hmem with rfl | hmem
      · obtain ⟨display, himage⟩ := (of_importedImage hfound).2 _ _ rfl
        exact .inr ⟨display, image, himage, hstack.1⟩
      · exact .inl hmem
    · exact .inr hclosed

/-- **A walk over closed images succeeds.** -/
theorem walk_ok {visited : List Name} {stack : List (Name × List Import)}
    (himages : ∀ name ∈ images.map fst, Closed images externalImports name)
    (hstack : ∀ frame ∈ stack, ∀ imported ∈ frame.2, Resolved images externalImports imported) :
    ∃ visited', walk images externalImports visited stack = .ok visited' := by
  fun_induction walk images externalImports visited stack with
  | case1 visited => exact ⟨visited, rfl⟩
  | case2 visited name stack ih => exact ih (forall_mem_cons.mp hstack).2
  | case3 visited name imported imports stack error hfound =>
    obtain ⟨hframe, -⟩ := forall_mem_cons.mp hstack
    obtain ⟨found, hok⟩ := (hframe imported mem_cons_self).ok
      (displays images ((name, imports) :: stack))
    cases hfound.symm.trans hok
  | case4 visited name imported imports stack hfound ih
  | case5 visited name imported imports stack key image hfound hseen ih =>
    obtain ⟨hframe, hrest⟩ := forall_mem_cons.mp hstack
    exact ih (forall_mem_cons.mpr
      ⟨fun other hother => hframe other (mem_cons_of_mem _ hother), hrest⟩)
  | case6 visited name imported imports stack key image hfound hnew ih =>
    obtain ⟨hframe, hrest⟩ := forall_mem_cons.mp hstack
    obtain ⟨display, himage⟩ := (of_importedImage hfound).2 _ _ rfl
    obtain ⟨_, _, hlookup, hclosed⟩ := himages key (mem_map_of_mem (mem_of_lookup himage))
    cases himage.symm.trans hlookup
    exact ih (forall_mem_cons.mpr ⟨hclosed, forall_mem_cons.mpr
      ⟨fun other hother => hframe other (mem_cons_of_mem _ hother), hrest⟩⟩)

-- ---- The verdict.

theorem of_validateRoots {visited roots : List Name}
    (h : validateRoots images externalImports visited roots = .ok ())
    (hvisited : ∀ name ∈ visited, Closed images externalImports name) :
    ∀ root ∈ roots, Closed images externalImports root := by
  induction roots generalizing visited with
  | nil => exact fun root hroot => absurd hroot not_mem_nil
  | cons root roots ih =>
    rw [forall_mem_cons]
    rw [validateRoots, validateDependencyNode] at h
    by_cases hseen : root ∈ visited
    · rw [if_pos hseen] at h
      exact ⟨hvisited root hseen, ih h hvisited⟩
    · rw [if_neg hseen] at h
      cases himage : images.lookup root with
      | none =>
        rw [himage] at h
        cases h
      | some entry =>
        obtain ⟨display, image⟩ := entry
        rw [himage] at h
        dsimp only at h
        cases hwalk : walk images externalImports (root :: visited)
          [(root, image.dependencyImports)] with
        | error error =>
          rw [hwalk] at h
          cases h
        | ok visited' =>
          rw [hwalk] at h
          obtain ⟨hstack, -, hclosed⟩ := of_walk hwalk
          have hroot : Closed images externalImports root :=
            ⟨display, image, himage, hstack _ mem_cons_self⟩
          refine ⟨hroot, ih h fun name hname => ?_⟩
          rcases hclosed name hname with hmem | hname
          · rcases mem_cons.mp hmem with rfl | hmem
            · exact hroot
            · exact hvisited name hmem
          · exact hname

theorem validateRoots_ok {visited roots : List Name}
    (himages : ∀ name ∈ images.map fst, Closed images externalImports name)
    (hroots : ∀ root ∈ roots, root ∈ images.map fst) :
    validateRoots images externalImports visited roots = .ok () := by
  induction roots generalizing visited with
  | nil => rfl
  | cons root roots ih =>
    rw [forall_mem_cons] at hroots
    rw [validateRoots, validateDependencyNode]
    by_cases hseen : root ∈ visited
    · rw [if_pos hseen]
      exact ih hroots.2
    · obtain ⟨display, image, himage, hclosed⟩ := himages root hroots.1
      have hstack : ∀ frame ∈ [(root, image.dependencyImports)], ∀ imported ∈ frame.2,
          Resolved images externalImports imported :=
        forall_mem_singleton.mpr hclosed
      obtain ⟨visited', hwalk⟩ : ∃ visited', walk images externalImports (root :: visited)
        [(root, image.dependencyImports)] = .ok visited' := walk_ok himages hstack
      rw [if_neg hseen, himage]
      dsimp only
      rw [hwalk]
      exact ih hroots.2

theorem mem_keys_iff {name : Name} :
    name ∈ images.map fst ↔ ∃ display image, images.lookup name = some (display, image) := by
  constructor
  · intro h
    cases hlookup : images.lookup name with
    | none =>
      obtain ⟨entry, hentry, rfl⟩ := mem_map.mp h
      have hne := lookup_eq_none_iff.mp hlookup entry hentry
      exact absurd hne (by simp)
    | some entry => exact ⟨entry.1, entry.2, rfl⟩
  · rintro ⟨display, image, hlookup⟩
    exact mem_map_of_mem (mem_of_lookup hlookup)

/-- What the check is for: no name is both bundled and external, and every import of every image
is resolved. -/
def ClosedWorld (images : Images) (externalImports : List Name) : Prop :=
  (∀ name ∈ externalImports, name ∉ images.map Prod.fst) ∧
    ∀ name display image, images.lookup name = some (display, image) →
      ∀ imported ∈ image.dependencyImports, Resolved images externalImports imported

theorem validateDependencyGraph_ok : validateDependencyGraph images externalImports = .ok () ↔
      ClosedWorld images externalImports ∧
        validateForwardedExports images externalImports = .ok () := by
  have hall : (∀ name ∈ images.map fst, Closed images externalImports name) ↔
      ∀ name display image, images.lookup name = some (display, image) →
        ∀ imported ∈ image.dependencyImports, Resolved images externalImports imported := by
    constructor
    · intro h name display image himage
      obtain ⟨_, _, hlookup, hclosed⟩ := h name (mem_keys_iff.mpr ⟨display, image, himage⟩)
      cases himage.symm.trans hlookup
      exact hclosed
    · intro h name hname
      obtain ⟨display, image, himage⟩ := mem_keys_iff.mp hname
      exact ⟨display, image, himage, h name display image himage⟩
  unfold validateDependencyGraph ClosedWorld
  rw [← hall]
  cases hboth : externalImports.find? fun name => name ∈ images.map fst with
  | some name =>
    have hmem : name ∈ images.map fst := by simpa using find?_some hboth
    refine ⟨nofun, fun h => absurd hmem ?_⟩
    exact h.1.1 name (mem_of_find?_eq_some hboth)
  | none =>
    have hapart : ∀ name ∈ externalImports, name ∉ images.map fst := fun name hname => by
      simpa using find?_eq_none.mp hboth name hname
    dsimp only
    cases hroots : validateRoots images externalImports [] (images.map fst) with
    | error error =>
      refine ⟨nofun, fun h => ?_⟩
      cases hroots.symm.trans (validateRoots_ok h.1.2 fun _ => id)
    | ok _ =>
      have hclosed := of_validateRoots hroots fun name hname => absurd hname not_mem_nil
      cases validateForwardedExports images externalImports with
      | error error => exact ⟨nofun, fun h => (by cases h.2)⟩
      | ok _ => exact ⟨fun _ => ⟨⟨hapart, hclosed⟩, rfl⟩, fun _ => rfl⟩

/-- **The dependency closure.** The check accepts exactly when no name is both bundled and
external, every import of every image is resolved, and every chain of forwarded exports ends. -/
theorem dependency_graph_exact (images : Images) (externalImports : List Name) :
    validateDependencyGraph images externalImports = .ok () ↔
      ClosedWorld images externalImports ∧
        ∀ node ∈ forwardedNodes images, Grounded images externalImports node := by
  rw [validateDependencyGraph_ok, validateForwardedExports,
    (validateForwardedNodes_spec _ fun n hn => absurd hn not_mem_nil).2]

/-- An image without imports that forwards an export to itself is not accepted. -/
theorem dependency_graph_forwarding_cycle : let name : Name := ['a', '.', 'd', 'l', 'l']
    let image : PeInfo := { PeInfo.default with
      exports := [['f']]
      forwardedExports := [(.name ['f'], ⟨name, .name ['f']⟩)] }
    ClosedWorld [(name, name, image)] [] ∧
      validateDependencyGraph [(name, name, image)] [] ≠ .ok () := by
  intro name image
  refine ⟨⟨fun _ h => absurd h not_mem_nil, fun _ _ found hlookup imported hmem => ?_⟩, ?_⟩
  · have himage := mem_singleton.mp (mem_of_lookup hlookup)
    cases himage
    cases hmem
  · rw [Ne, validateDependencyGraph_ok, validateForwardedExports,
      (validateForwardedNodes_spec _ fun n hn => absurd hn not_mem_nil).2]
    intro h
    have hlookup : lookup name [(name, name, image)] = some (name, image) := rfl
    have hhop : Hop [(name, name, image)] [] (name, .name ['f']) (name, .name ['f']) :=
      ⟨name, image, ⟨name, .name ['f']⟩, hlookup, rfl, rfl, by decide +kernel, name, image, hlookup,
        by decide⟩
    exact not_grounded_of_cycle (.single hhop) (h.2 _ mem_cons_self)

end Xlfn.Package
