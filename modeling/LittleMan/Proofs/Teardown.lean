import LittleMan.Proofs.FailedPasses
import LittleMan.Proofs.Undoing

/-! An unload that fails. Everything has been given back by the time that views are refreshed, so a view whose mode
stalls keeps no more than the views behind it from their refresh. -/
namespace LittleMan

theorem Table.heldEntry {α : Type} {table : Table α} {owner : Owner} {name : Text} (held : table.held owner name = true) :
    (name,owner) ∈ table.map fun e => (e.name,e.owner) := by
  obtain ⟨e,there,rfl⟩ := Table.heldIff.mp held
  rw [← Table.getNamed there]
  exact List.mem_map_of_mem (List.mem_of_find?_eq_some there)

namespace Session
variable {host : Host} {s t : Session} {x : Extension} {id kind : Text}

theorem unloadStops (found : s.extension? id = some x) (active : x.loaded = true) (single : s.shown.Nodup)
    (failed : unload host id s = .error (.stalled kind) t) :
    ∃ before stopped after v, s.shown = before ++ stopped :: after ∧ s.view? stopped = some v ∧
      x.names.any v.mode.same = true ∧ tokensIn host t.catalog v.mode v.text = .error (.stalled kind) ∧
      PassedUpTo host t.catalog x.names before s t := by
  obtain rfl := extensionNamed found
  obtain ⟨c,ns,_,ran⟩ := unloadRuns host found active
  let given : Session := {s.withExtension x.id unloaded with
    catalog := c, notices := ns, pending := s.pending.erase (.refresh x.id)}
  have kept : ∀ y, (unloaded y).id = y.id := fun _ => rfl
  have there : given.extension? x.id = some (unloaded x) := changedFound kept found
  have refreshed : refreshShown host x.id given = .error (.stalled kind) t := by
    rw [ran] at failed
    rcases bindStops failed with stopped | ⟨_,_,_,done⟩
    · exact stopped
    · cases done
  have views := refreshShownViews host x.id given
  rw [refreshed] at views
  have catalog : t.catalog = c := views.catalog
  obtain ⟨before,stopped,after,v,parts,shown,named,stalls,upTo⟩ := refreshShownStops there single refreshed
  rw [catalog]
  exact ⟨before,stopped,after,v,parts,shown,named,stalls,upTo.passed,upTo.others⟩

/- A view is shown once and a callback waits once: what is shown again is another view, and registering what waits
already is nothing. -/
theorem unloadTornDown (found : s.extension? id = some x) (active : x.loaded = true)
    (lists : ∀ name, s.catalog.modes.held (.extension id) name = true → name ∈ x.heldModes)
    (typeLists : ∀ type, s.catalog.contentTypes.held (.extension id) type = true → type ∈ x.heldContentTypes)
    (once : s.pending.count (.refresh id) ≤ 1) (single : s.shown.Nodup)
    (failed : unload host id s = .error (.stalled kind) t) :
    x.HoldsNothing t.catalog ∧ OthersKept id s t ∧
      (∃ y, t.extension? id = some y ∧ y.loaded = false ∧ y.heldModes = []) ∧ .refresh id ∉ t.pending ∧
      (∃ before stopped after v, s.shown = before ++ stopped :: after ∧ s.view? stopped = some v ∧
        x.names.any v.mode.same = true ∧ tokensIn host t.catalog v.mode v.text = .error (.stalled kind) ∧
        PassedUpTo host t.catalog x.names before s t) ∧
      unload host id t = .ok () t := by
  have stops := unloadStops found active single failed
  obtain rfl := extensionNamed found
  have ended : left (unload host x.id s) = t := congrArg left failed
  obtain ⟨revoked,now,pending⟩ := unloadLeaves host found active
  rw [ended] at revoked now pending
  refine ⟨revoked.holdsNothing lists typeLists,revokedOthers revoked,⟨_,now,rfl,rfl⟩,?_,stops,?_⟩
  · rw [pending, ← List.count_eq_zero, List.count_erase_self]
    exact Nat.sub_eq_zero_of_le once
  · exact unloadNothing host fun y same => Option.some.inj (now.symm.trans same) ▸ rfl

def stall? {α : Type} : EStateM.Result Failure Session α → Option Text
  | .error (.stalled kind) _ => some kind
  | _ => none

theorem stallEnds {α : Type} {outcome : EStateM.Result Failure Session α} (stalls : stall? outcome = some kind) :
    ∃ t, outcome = .error (.stalled kind) t := by
  unfold stall? at stalls
  split at stalls
  · obtain rfl := Option.some.inj stalls
    exact ⟨_,rfl⟩
  · contradiction

theorem unloadTornDownWaiting :
    let p := "p".toList
    let a := "a".toList
    let b := "b".toList
    let stuck := "stuck".toList
    let host : Host := ⟨fun id => if id = stuck then Stock.stalled.mode else Mode.lexer,.standard⟩
    let s := ending host (fun _ => []) (.start true) [.showView ['1'] "HLT".toList (.text a),
      .showView ['2'] "HLT".toList .null,.showView ['3'] "HLT".toList (.text b),.showView ['4'] "HLT".toList (.text a),
      .insertMode (.text b) stuck .host,.makeExtension p ⟨none,some [.text a,.text b],none⟩,.load p,.passOver ['1']]
    .refresh p ∈ s.pending ∧ s.catalog.modes.held (.extension p) a = true ∧
      ∃ t, unload host p s = .error (.stalled Stock.stalled.kind) t ∧ .refresh p ∉ t.pending ∧
        (∀ name, t.catalog.modes.held (.extension p) name = false) ∧ unload host p t = .ok () t := by
  intro p a b stuck host s
  have waits : .refresh p ∈ s.pending := by decide +kernel
  have holds : s.catalog.modes.held (.extension p) a = true := by decide +kernel
  have listed : (s.extension? p).map (fun x => (x.loaded,x.heldModes,x.heldContentTypes)) =
      some (true,[a],[Language.contentType]) := by decide +kernel
  have modes : s.catalog.modes.map (fun e => (e.name,e.owner)) = [(b,.host),(a,.extension p)] := by decide +kernel
  have types : s.catalog.contentTypes.map (fun e => (e.name,e.owner)) =
      [(Language.contentType,.extension p)] := by decide +kernel
  have once : s.pending.count (.refresh p) ≤ 1 := by decide +kernel
  have single : s.shown.Nodup := by decide +kernel
  have stops : stall? (unload host p s) = some Stock.stalled.kind := by decide +kernel
  -- From here on the session is any that these facts hold of.
  clear_value s host
  obtain ⟨x,found,lists⟩ := Option.map_eq_some_iff.mp listed
  obtain ⟨active,heldModes,heldTypes⟩ : x.loaded = true ∧ x.heldModes = [a] ∧
      x.heldContentTypes = [Language.contentType] := by simpa only [Prod.mk.injEq] using lists
  obtain ⟨t,ended⟩ := stallEnds stops
  obtain ⟨nothing,_,_,dropped,_,again⟩ := unloadTornDown found active
    (fun name held => by simpa [modes, heldModes] using Table.heldEntry held)
    (fun type held => by simpa [types, heldTypes] using Table.heldEntry held) once single ended
  exact ⟨waits,holds,t,ended,dropped,extensionNamed found ▸ nothing.modes,again⟩

end Session
end LittleMan
