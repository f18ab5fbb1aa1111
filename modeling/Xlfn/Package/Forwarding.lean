import Mathlib.Logic.Relation
import Xlfn.Package.PeInfo

/-!
# Xlfn — forwarded exports

An export may be forwarded to an export of another library, and that one again. Every chain is
followed, and what was followed to its end is remembered.

* `validateForwardedExports` — the code.
* `Grounded` — a chain that ends.
-/

namespace Xlfn.Package

open List

-- ---- The code.

/-- An export of an image. -/
abbrev ForwardNode := Name × ExportSymbol

inductive ForwardError where
  | cyclic (cycle : List ForwardNode)
  | internal (image : Name)
  | missing (display : Name) (symbol : ExportSymbol)
  | unresolved (display : Name) (symbol : ExportSymbol) (target : ForwardedExport)
  | targetMissing (display : Name) (symbol : ExportSymbol) (target : Name)
      (targetSymbol : ExportSymbol)

variable (images : Images) (externalImports : List Name)

/-- What the loop does at a node it has not seen: the chain ends, or goes on to another node. -/
def forwardStep (node : ForwardNode) : Except ForwardError (Option ForwardNode) :=
  match images.lookup node.1 with
  | none => .error (.internal node.1)
  | some (display, image) =>
    match image.forwardedExports.lookup node.2 with
    | none =>
      if image.hasExportSymbol node.2 then .ok none else .error (.missing display node.2)
    | some forwarded =>
      let targetLibrary := toAsciiLowercase forwarded.library
      if isSystem targetLibrary ∨ targetLibrary ∈ externalImports then .ok none
      else
        match images.lookup targetLibrary with
        | none => .error (.unresolved display node.2 forwarded)
        | some (targetDisplay, targetImage) =>
          if targetImage.hasExportSymbol forwarded.symbol then
            .ok (some (targetLibrary, forwarded.symbol))
          else .error (.targetMissing display node.2 targetDisplay forwarded.symbol)

/-- The nodes that are forwarded. -/
def forwardedNodes : List ForwardNode :=
  images.flatMap fun image => image.2.2.forwardedExports.map fun entry => (image.1, entry.1)

variable {images externalImports}

theorem mem_forwardedNodes {node target : ForwardNode}
    (h : forwardStep images externalImports node = .ok (some target)) :
    node ∈ forwardedNodes images := by
  unfold forwardStep at h
  cases himage : images.lookup node.1 with
  | none =>
    rw [himage] at h
    cases h
  | some image =>
    rw [himage] at h
    cases hforward : image.2.forwardedExports.lookup node.2 with
    | none =>
      simp only [hforward] at h
      split at h <;> cases h
    | some forwarded =>
      exact mem_flatMap.mpr ⟨(node.1, image), mem_of_lookup himage,
        mem_map.mpr ⟨(node.2, forwarded), mem_of_lookup hforward, rfl⟩⟩

variable (images externalImports)

/-- The loop of `validate_forwarded_symbol`: what is resolved in the end. `positions` is where the
nodes of `stack` are. -/
def followForwards (resolved stack : List ForwardNode) (node : ForwardNode) :
    Except ForwardError (List ForwardNode) :=
  if node ∈ resolved then .ok (stack ++ resolved)
  else if _ : node ∈ stack then
    .error (.cyclic (stack.drop (stack.idxOf node) ++ [node]))
  else
    match _ : forwardStep images externalImports node with
    | .error error => .error error
    | .ok none => .ok (stack ++ node :: resolved)
    | .ok (some target) => followForwards resolved (stack ++ [node]) target
termination_by unseen (forwardedNodes images) stack
decreasing_by
  exact unseen_lt (mem_forwardedNodes ‹_›) ‹_› (mem_append_right _ mem_cons_self)
    fun _ => mem_append_left _

def validateForwardedSymbol (resolved : List ForwardNode) (node : ForwardNode) :
    Except ForwardError (List ForwardNode) :=
  followForwards images externalImports resolved [] node

/-- The two loops of `validate_forwarded_exports`. -/
def validateForwardedNodes (resolved : List ForwardNode) :
    List ForwardNode → Except ForwardError Unit
  | [] => .ok ()
  | node :: nodes =>
    match validateForwardedSymbol images externalImports resolved node with
    | .error error => .error error
    | .ok resolved => validateForwardedNodes resolved nodes

def validateForwardedExports : Except ForwardError Unit :=
  validateForwardedNodes images externalImports [] (forwardedNodes images)

/-- The same loops with nothing remembered. -/
def validateAfresh : List ForwardNode → Except ForwardError Unit
  | [] => .ok ()
  | node :: nodes =>
    match validateForwardedSymbol images externalImports [] node with
    | .error error => .error error
    | .ok _ => validateAfresh nodes

-- ---- Chains.

/-- A chain ends: at a direct export, or at a library that is not bundled. -/
def Ends (node : ForwardNode) : Prop :=
  ∃ display image, images.lookup node.1 = some (display, image) ∧
    (image.forwardedExports.lookup node.2 = none ∧ image.hasExportSymbol node.2 = true ∨
      ∃ forwarded, image.forwardedExports.lookup node.2 = some forwarded ∧
        (isSystem (toAsciiLowercase forwarded.library) = true ∨
          toAsciiLowercase forwarded.library ∈ externalImports))

/-- A chain goes on: to an export of a bundled image. -/
def Hop (node target : ForwardNode) : Prop :=
  ∃ display image forwarded, images.lookup node.1 = some (display, image) ∧
    image.forwardedExports.lookup node.2 = some forwarded ∧
    target = (toAsciiLowercase forwarded.library, forwarded.symbol) ∧
    ¬(isSystem target.1 = true ∨ target.1 ∈ externalImports) ∧
    ∃ display image, images.lookup target.1 = some (display, image) ∧
      image.hasExportSymbol target.2 = true

/-- **A chain that ends after finitely many hops.** -/
def Grounded (node : ForwardNode) : Prop :=
  ∃ last, Relation.ReflTransGen (Hop images externalImports) node last ∧
    Ends images externalImports last

variable {images externalImports} {node target : ForwardNode}

/-- **What a step that does not fail says.** -/
theorem of_forwardStep {next : Option ForwardNode}
    (h : forwardStep images externalImports node = .ok next) :
    match next with
    | none => Ends images externalImports node
    | some target => Hop images externalImports node target := by
  unfold forwardStep at h
  cases himage : images.lookup node.1 with
  | none =>
    rw [himage] at h
    cases h
  | some entry =>
    obtain ⟨display, image⟩ := entry
    cases hforward : image.forwardedExports.lookup node.2 with
    | none =>
      simp only [himage, hforward] at h
      split at h
      · next hdirect =>
        cases h
        exact ⟨display, image, himage, .inl ⟨hforward, hdirect⟩⟩
      · cases h
    | some forwarded =>
      simp only [himage, hforward] at h
      split at h
      · next hlibrary =>
        cases h
        exact ⟨display, image, himage, .inr ⟨forwarded, hforward, hlibrary⟩⟩
      · next hlibrary =>
        cases htarget : images.lookup (toAsciiLowercase forwarded.library) with
        | none =>
          rw [htarget] at h
          cases h
        | some entry =>
          simp only [htarget] at h
          split at h
          · next hsymbol =>
            cases h
            exact ⟨display, image, forwarded, himage, hforward, rfl, hlibrary, entry.1, entry.2,
              htarget, hsymbol⟩
          · cases h

theorem Ends.step (h : Ends images externalImports node) :
    forwardStep images externalImports node = .ok none := by
  obtain ⟨display, image, himage, ⟨hforward, hdirect⟩ | ⟨forwarded, hforward, hlibrary⟩⟩ := h
  · simp only [forwardStep, himage, hforward, if_pos hdirect]
  · simp only [forwardStep, himage, hforward, if_pos hlibrary]

theorem Hop.step (h : Hop images externalImports node target) :
    forwardStep images externalImports node = .ok (some target) := by
  obtain ⟨display, image, forwarded, himage, hforward, rfl, hlibrary, _, _, htarget, hsymbol⟩ := h
  simp only [forwardStep, himage, hforward, if_neg hlibrary, htarget, if_pos hsymbol]

theorem Ends.grounded (h : Ends images externalImports node) :
    Grounded images externalImports node :=
  ⟨node, .refl, h⟩

theorem Hop.grounded_iff (h : Hop images externalImports node target) :
    Grounded images externalImports node ↔ Grounded images externalImports target := by
  constructor
  · rintro ⟨last, hchain, hends⟩
    rcases hchain.cases_head with rfl | ⟨next, hnext, hrest⟩
    · cases h.step.symm.trans hends.step
    · cases h.step.symm.trans hnext.step
      exact ⟨last, hrest, hends⟩
  · rintro ⟨last, hchain, hends⟩
    exact ⟨last, hchain.head h, hends⟩

/-- **A chain that comes back to where it was does not end.** -/
theorem not_grounded_of_cycle (h : Relation.TransGen (Hop images externalImports) node node) :
    ¬Grounded images externalImports node := by
  rintro ⟨last, hchain, hends⟩
  induction hchain using Relation.ReflTransGen.head_induction_on with
  | refl =>
    obtain ⟨next, hnext, -⟩ := Relation.TransGen.head'_iff.mp h
    cases hnext.step.symm.trans hends.step
  | head hhop _ ih =>
    obtain ⟨next, hnext, hback⟩ := Relation.TransGen.head'_iff.mp h
    cases hhop.step.symm.trans hnext.step
    exact ih (Relation.TransGen.tail' hback hhop)

-- ---- The loop.

theorem followForwards_afresh {stack : List ForwardNode} :
    followForwards images externalImports [] stack node =
      if node ∈ stack then .error (.cyclic (stack.drop (stack.idxOf node) ++ [node]))
      else
        match forwardStep images externalImports node with
        | .error error => .error error
        | .ok none => .ok (stack ++ [node])
        | .ok (some target) =>
          followForwards images externalImports [] (stack ++ [node]) target := by
  rw [followForwards, if_neg not_mem_nil]
  by_cases hseen : node ∈ stack
  · rw [dif_pos hseen, if_pos hseen]
  · rw [dif_neg hseen, if_neg hseen]
    split <;> simp only [*]

/-- **Following a chain.** It fails where the chain does not end, and then in the same way with
nothing remembered; otherwise only what ends is remembered. -/
theorem followForwards_spec {resolved stack : List ForwardNode}
    (hresolved : ∀ n ∈ resolved, Grounded images externalImports n)
    (hstack : ∀ n ∈ stack, Relation.TransGen (Hop images externalImports) n node) :
    match followForwards images externalImports resolved stack node with
    | .ok resolved => Grounded images externalImports node ∧
      ∀ n ∈ resolved, Grounded images externalImports n
    | .error error => ¬Grounded images externalImports node ∧
      followForwards images externalImports [] stack node = .error error := by
  have hbefore : ∀ {n target}, Relation.TransGen (Hop images externalImports) n target →
      Grounded images externalImports target → Grounded images externalImports n := by
    rintro n target hchain ⟨last, hrest, hlast⟩
    exact ⟨last, hchain.to_reflTransGen.trans hrest, hlast⟩
  fun_induction followForwards images externalImports resolved stack node with
  | case1 stack node hmem =>
    refine ⟨hresolved node hmem, fun n hn => ?_⟩
    rcases mem_append.mp hn with hn | hn
    · exact hbefore (hstack n hn) (hresolved node hmem)
    · exact hresolved n hn
  | case2 stack node hnot hseen =>
    exact ⟨not_grounded_of_cycle (hstack node hseen), by rw [followForwards_afresh, if_pos hseen]⟩
  | case3 stack node hnot hseen error hstep =>
    refine ⟨?_, by rw [followForwards_afresh, if_neg hseen, hstep]⟩
    rintro ⟨last, hchain, hends⟩
    rcases hchain.cases_head with rfl | ⟨next, hnext, -⟩
    · cases hstep.symm.trans hends.step
    · cases hstep.symm.trans hnext.step
  | case4 stack node hnot hseen hstep =>
    have hends : Ends images externalImports node := of_forwardStep hstep
    refine ⟨hends.grounded, fun n hn => ?_⟩
    rcases mem_append.mp hn with hn | hn
    · exact hbefore (hstack n hn) hends.grounded
    · rcases mem_cons.mp hn with rfl | hn
      · exact hends.grounded
      · exact hresolved n hn
  | case5 stack node hnot hseen target hstep ih =>
    have hhop : Hop images externalImports node target := of_forwardStep hstep
    have htarget := ih fun n hn => by
      rcases mem_append.mp hn with hn | hn
      · exact (hstack n hn).tail hhop
      · rw [mem_singleton.mp hn]
        exact .single hhop
    rw [followForwards_afresh, if_neg hseen, hstep, hhop.grounded_iff]
    exact htarget

-- ---- The verdict.

theorem validateForwardedNodes_spec {resolved : List ForwardNode} (nodes : List ForwardNode)
    (hresolved : ∀ n ∈ resolved, Grounded images externalImports n) :
    validateForwardedNodes images externalImports resolved nodes =
        validateAfresh images externalImports nodes ∧
      (validateForwardedNodes images externalImports resolved nodes = .ok () ↔
        ∀ n ∈ nodes, Grounded images externalImports n) := by
  have hnone : ∀ {P : ForwardNode → Prop}, ∀ n ∈ [], P n := fun n hn => absurd hn not_mem_nil
  induction nodes generalizing resolved with
  | nil => exact ⟨rfl, fun _ => hnone, fun _ => rfl⟩
  | cons node nodes ih =>
    have hstack : ∀ n ∈ [], Relation.TransGen (Hop images externalImports) n node := hnone
    have hspec := followForwards_spec hresolved hstack
    have hafresh := followForwards_spec hnone hstack
    rw [validateForwardedNodes, validateAfresh, validateForwardedSymbol, validateForwardedSymbol,
      forall_mem_cons]
    cases hrun : followForwards images externalImports resolved [] node with
    | error error =>
      rw [hrun] at hspec
      rw [hspec.2]
      refine ⟨rfl, ⟨fun h => ?_, fun h => absurd h.1 hspec.1⟩⟩
      cases h
    | ok resolved' =>
      rw [hrun] at hspec
      obtain ⟨hsame, hverdict⟩ := ih hspec.2
      cases hrun' : followForwards images externalImports [] [] node with
      | error error =>
        rw [hrun'] at hafresh
        exact absurd hspec.1 hafresh.1
      | ok _ => exact ⟨hsame, hverdict.trans ⟨fun h => ⟨hspec.1, h⟩, fun h => h.2⟩⟩

theorem Grounded.of_chain (h : Grounded images externalImports node)
    (hchain : Relation.ReflTransGen (Hop images externalImports) node target) :
    Grounded images externalImports target := by
  induction hchain with
  | refl => exact h
  | tail _ hhop ih => exact hhop.grounded_iff.mp ih

/-- **Forwarded exports.** The check accepts exactly when every chain from a forwarded export of an
image ends after finitely many hops, at a direct export or at a library that is not bundled. It
rejects a chain that comes back, and one that cannot go on. What it remembers changes nothing, not
even which error it reports. -/
theorem forwarded_exports_exact (images : Images) (externalImports : List Name) :
    (validateForwardedExports images externalImports = .ok () ↔
      ∀ node ∈ forwardedNodes images, Grounded images externalImports node) ∧
    (∀ node ∈ forwardedNodes images, ∀ last,
      Relation.ReflTransGen (Hop images externalImports) node last →
      (Relation.TransGen (Hop images externalImports) last last ∨
        ¬Ends images externalImports last ∧ ∀ target, ¬Hop images externalImports last target) →
      ∃ error, validateForwardedExports images externalImports = .error error) ∧
    validateForwardedExports images externalImports =
      validateAfresh images externalImports (forwardedNodes images) := by
  have hnone : ∀ n ∈ [], Grounded images externalImports n := fun n hn => absurd hn not_mem_nil
  obtain ⟨hsame, hverdict⟩ := validateForwardedNodes_spec (forwardedNodes images) hnone
  refine ⟨hverdict, fun node hnode last hchain hbad => ?_, hsame⟩
  have hlast : ¬Grounded images externalImports last := by
    rcases hbad with hcycle | ⟨hends, hstuck⟩
    · exact not_grounded_of_cycle hcycle
    · rintro ⟨final, hrest, hfinal⟩
      rcases hrest.cases_head with rfl | ⟨next, hnext, -⟩
      · exact hends hfinal
      · exact hstuck next hnext
  cases hrun : validateForwardedExports images externalImports with
  | error error => exact ⟨error, rfl⟩
  | ok _ => exact absurd ((hverdict.mp hrun node hnode).of_chain hchain) hlast

end Xlfn.Package
