import FleetControl.Proofs.Calls
import FleetControl.Proofs.Clearance
import FleetControl.Proofs.Shelves

namespace FleetControl.Batch

variable {cloud : Cloud} {c : Catalog} {tokens : List String} {command : Command} {o : Options}
  {operator : Operator} {clock : Progress.TimeOfDay} {r : Sent} {records : List FleetControl.Record}

theorem clear_catalog (cloud : Cloud) (c : Catalog) (tokens : List String) (command : Command)
    (o : Options) (operator : Operator) :
    (clear cloud c tokens command o operator).catalog = c ∨
      ∃ now, (clear cloud c tokens command o operator).catalog =
        { (c.ensure cloud command.kind).1 with now } := by
  cases hadm : refusal? tokens o with
  | some why => exact .inl (by rw [clear_of_refused hadm])
  | none =>
    right
    cases hres : (c.resolve cloud command.kind tokens).2 with
    | error e => exact ⟨(c.ensure cloud command.kind).1.now, by rw [clear_of_resolve_error hadm hres]⟩
    | ok uuids =>
      rw [clear_of_resolve hadm hres]
      unfold confirm
      split
      · exact ⟨_, rfl⟩
      · exact ⟨_, rfl⟩

theorem send_catalog (h : send cloud c tokens command o operator clock = some r) :
    ∃ now, r.catalog = { (clear cloud c tokens command o operator).catalog with now } := by
  obtain ⟨e, _, rfl⟩ | ⟨items, f, _, _, rfl⟩ := send_eq_some_iff.mp h
  · exact ⟨_, rfl⟩
  · exact ⟨f.now, rfl⟩

theorem send_resolve_error_iff (h : send cloud c tokens command o operator clock = some r)
    (e : ResolveError) :
    r.result = .error (.resolve e) ↔
      refusal? tokens o = none ∧ (c.resolve cloud command.kind tokens).2 = .error e := by
  have hitems : r.result = .error (.resolve e) ↔
      (clear cloud c tokens command o operator).items = .error (.resolve e) := by
    obtain ⟨e', hitems, rfl⟩ | ⟨items, f, hitems, _, rfl⟩ := send_eq_some_iff.mp h
    · rw [hitems]
      simp
    · rw [hitems]
      simp
  rw [hitems]
  cases hadm : refusal? tokens o with
  | some why => simp [clear_of_refused hadm]
  | none =>
    cases hres : (c.resolve cloud command.kind tokens).2 with
    | error e' => simp [clear_of_resolve_error hadm hres]
    | ok uuids =>
      rw [clear_of_resolve hadm hres]
      refine iff_of_false (fun h => ?_) (by simp)
      cases unconfirmed_of_confirm h

theorem uuids_of_send_ok {outcome : Outcome (Option FleetControl.Record)}
    (h : send cloud c tokens command o operator clock = some r) (hok : r.result = .ok outcome) :
    (c.resolve cloud command.kind tokens).2 = .ok (outcome.items.map (·.uuid)) := by
  obtain ⟨items, f, hitems, hrun, _, rfl⟩ := send_ok h hok
  obtain ⟨uuids, rfl, hcleared⟩ := clear_ok_iff.mp hitems
  have hacc := (Floor.accounted_kept _ _).reaches
    ((Floor.accounted_kept _ _).letIn _ (Floor.accounted_start _ _)) (Floor.loop_reaches hrun).1
  have hlen := length_of_resolve (ne_nil_of_refusal? hcleared.admissible) hcleared.resolved
  have huuids : f.outcome.items.map (·.uuid) = uuids := by
    calc f.outcome.items.map (·.uuid)
        = (f.jobs.map fun j => (j.token, j.uuid)).map (·.2) := by
          simp [Floor.outcome, Function.comp_def]
      _ = uuids := by rw [hacc.items, List.map_snd_zip (Nat.le_of_eq hlen)]
  rw [huuids]
  exact hcleared.resolved

end FleetControl.Batch

namespace FleetControl.Catalog

open Batch (Options Operator Sent)

inductive Operation
  | ensure (kind : Kind)
  | resolveOne (kind : Kind) (token : String)
  | resolve (kind : Kind) (tokens : List String)
  | inspect (kind : Kind) (tokens : List String)
  | lookup (kind : Kind) (uuid : String)
  | send (tokens : List String) (command : Command) (o : Options) (operator : Operator)
    (clock : Progress.TimeOfDay)

inductive Answer
  | collection (result : Except ResolveError (List Record))
  | uuid (result : Except ResolveError String)
  | uuids (result : Except ResolveError (List String))
  | records (result : Except BatchError (List Record))
  | record (result : Except ResolveError Record)
  | batch (sent : Sent)

namespace Operation

def kind : Operation → Kind
  | ensure kind | resolveOne kind _ | resolve kind _ | inspect kind _ | lookup kind _ => kind
  | send _ command _ _ _ => command.kind

def perform (cloud : Cloud) (c : Catalog) : Operation → Option (Catalog × Answer)
  | ensure kind => some ((c.ensure cloud kind).map id .collection)
  | resolveOne kind token => some ((c.resolveOne cloud kind token).map id .uuid)
  | resolve kind tokens => some ((c.resolve cloud kind tokens).map id .uuids)
  | inspect kind tokens => some ((Batch.inspect cloud c kind tokens).map id .records)
  | lookup kind uuid => some (c, .record (c.lookup kind uuid))
  | send tokens command o operator clock =>
    (Batch.send cloud c tokens command o operator clock).map fun r => (r.catalog, .batch r)

end Operation

inductive Becomes : Catalog → List (Cloud × Operation) → Catalog → Prop
  | refl {c : Catalog} : Becomes c [] c
  | step {c d e : Catalog} {cloud : Cloud} {operation : Operation} {answer : Answer}
    {rest : List (Cloud × Operation)} : operation.perform cloud c = some (d, answer) →
    Becomes d rest e → Becomes c ((cloud, operation) :: rest) e

variable {cloud : Cloud} {c d e : Catalog} {kind : Kind} {records : List Record}
  {operations : List (Cloud × Operation)}

theorem grows_send (h : c.Labelled) {tokens : List String} {command : Command} {o : Options}
    {operator : Operator} {clock : Progress.TimeOfDay} {r : Sent}
    (hr : Batch.send cloud c tokens command o operator clock = some r) :
    Grows (· = command.kind) c r.catalog := by
  obtain ⟨now, hcatalog⟩ := Batch.send_catalog hr
  rw [hcatalog]
  obtain hc | ⟨now', hc⟩ := Batch.clear_catalog cloud c tokens command o operator
  · rw [hc]
    exact (Grows.refl h).withNow now
  · rw [hc]
    exact (grows_ensure cloud h command.kind).withNow now

theorem inspect_fst (cloud : Cloud) (c : Catalog) (kind : Kind) (tokens : List String) :
    (Batch.inspect cloud c kind tokens).1 = if tokens = [] then c else (c.ensure cloud kind).1 := by
  unfold Batch.inspect
  split <;> rfl

theorem grows_perform (h : c.Labelled) {operation : Operation} {answer : Answer}
    (hp : operation.perform cloud c = some (d, answer)) : Grows (· = operation.kind) c d := by
  cases operation with
  | ensure kind =>
    obtain rfl : (c.ensure cloud kind).1 = d := congrArg Prod.fst (Option.some.inj hp)
    exact grows_ensure cloud h kind
  | resolveOne kind token =>
    obtain rfl : (c.ensure cloud kind).1 = d := congrArg Prod.fst (Option.some.inj hp)
    exact grows_ensure cloud h kind
  | resolve kind tokens =>
    obtain rfl : (c.ensure cloud kind).1 = d := congrArg Prod.fst (Option.some.inj hp)
    exact grows_ensure cloud h kind
  | inspect kind tokens =>
    obtain rfl : (Batch.inspect cloud c kind tokens).1 = d := congrArg Prod.fst (Option.some.inj hp)
    rw [inspect_fst]
    split
    · exact Grows.refl h
    · exact grows_ensure cloud h kind
  | lookup kind uuid =>
    obtain rfl : c = d := congrArg Prod.fst (Option.some.inj hp)
    exact Grows.refl h
  | send tokens command o operator clock =>
    obtain ⟨r, hr, hd⟩ := Option.map_eq_some_iff.mp hp
    obtain rfl : r.catalog = d := congrArg Prod.fst hd
    exact grows_send h hr

theorem grows_becomes (hc : c.Labelled) (h : Becomes c operations d) :
    Grows (fun k => ∃ entry ∈ operations, entry.2.kind = k) c d := by
  induction h with
  | refl => exact Grows.refl hc
  | step hp _ ih =>
    have hfirst := grows_perform hc hp
    apply (hfirst.mono _).trans ((ih hfirst.labelled).mono _)
    · rintro k rfl
      exact ⟨_, List.mem_cons_self, rfl⟩
    · rintro k ⟨entry, hmem, hk⟩
      exact ⟨entry, List.mem_cons_of_mem _ hmem, hk⟩

theorem ensure_of_cached (hc : c.Labelled) (hk : (c.shelf kind).cached = some records) (cloud : Cloud) :
    c.ensure cloud kind = (c, .ok records) := by
  have he := ensures_ensure cloud hc kind
  generalize c.ensure cloud kind = r at he
  obtain ⟨d, answer⟩ := r
  cases he with
  | kept hk' => rw [Option.some.inj (hk.symm.trans hk')]
  | filled hnone _ => simp [hk] at hnone
  | failed hnone _ => simp [hk] at hnone

theorem ensure_of_unset (hc : c.Labelled) (hk : (c.shelf kind).cached = none) (cloud : Cloud) :
    (c.ensure cloud kind).1.listed = c.listed ++ [kind] ∧
      ((c.ensure cloud kind).1.shelf kind).cached =
        (cloud.list c.listed.length kind).outcome.toOption := by
  have he := ensures_ensure cloud hc kind
  generalize c.ensure cloud kind = r at he ⊢
  obtain ⟨d, answer⟩ := r
  cases he with
  | kept hk' => cases hk.symm.trans hk'
  | filled _ hout =>
    rw [hout]
    exact ⟨rfl, congrArg Shelf.cached (shelf_put_self (c.chargeListing cloud kind) ⟨kind, _⟩)⟩
  | failed _ hout =>
    rw [hout]
    exact ⟨rfl, hk⟩

theorem lookup_eq_notCached_iff (hc : c.Labelled) (kind : Kind) (uuid : String) :
    c.lookup kind uuid = .error (.notCached kind) ↔ (c.shelf kind).cached = none := by
  have hlabel := hc kind
  unfold lookup Shelf.lookup
  cases (c.shelf kind).cached with
  | none => simp [hlabel]
  | some records =>
    cases hfind : records.find? fun r => r.uuid == uuid <;> simp [hfind]

/-- `d` answers everything about the kind as `c` does, without a change to its shelves and without a
listing, whatever the clouds are like. -/
structure AnswersAlike (kind : Kind) (c d : Catalog) : Prop where
  ensure : ∀ cloud cloud', d.ensure cloud' kind = (d, (c.ensure cloud kind).2)
  resolveOne : ∀ cloud cloud' token,
    d.resolveOne cloud' kind token = (d, (c.resolveOne cloud kind token).2)
  resolve : ∀ cloud cloud' tokens, d.resolve cloud' kind tokens = (d, (c.resolve cloud kind tokens).2)
  inspect : ∀ cloud cloud' tokens,
    Batch.inspect cloud' d kind tokens = (d, (Batch.inspect cloud c kind tokens).2)
  lookup : ∀ uuid, d.lookup kind uuid = c.lookup kind uuid
  send : ∀ cloud cloud' tokens command o operator clock r, command.kind = kind →
    Batch.send cloud' d tokens command o operator clock = some r →
      (∃ now, r.catalog = { d with now }) ∧
      (∀ e, r.result = .error (.resolve e) ↔
        Batch.refusal? tokens o = none ∧ (c.resolve cloud kind tokens).2 = .error e) ∧
      ∀ outcome, r.result = .ok outcome →
        (c.resolve cloud kind tokens).2 = .ok (outcome.items.map (·.uuid))

theorem answersAlike (hc : c.Labelled) (hd : d.Labelled) (hck : (c.shelf kind).cached = some records)
    (hdk : (d.shelf kind).cached = some records) : AnswersAlike kind c d := by
  have hshelf : d.shelf kind = c.shelf kind := by
    rw [hd.shelf_eq kind, hc.shelf_eq kind, hck, hdk]
  have hensure (cloud : Cloud) : c.ensure cloud kind = (c, .ok records) := ensure_of_cached hc hck cloud
  have hensure' (cloud : Cloud) : d.ensure cloud kind = (d, .ok records) := ensure_of_cached hd hdk cloud
  have hlookup (uuid : String) : d.lookup kind uuid = c.lookup kind uuid := by
    simp only [lookup, hshelf]
  have hresolve (cloud cloud' : Cloud) (tokens : List String) :
      d.resolve cloud' kind tokens = (d, (c.resolve cloud kind tokens).2) := by
    simp only [resolve, hensure, hensure', hshelf]
  refine ⟨?_, ?_, hresolve, ?_, hlookup, ?_⟩
  · intro cloud cloud'
    rw [hensure, hensure']
  · intro cloud cloud' token
    simp only [resolveOne, hensure, hensure', hshelf]
  · intro cloud cloud' tokens
    unfold Batch.inspect
    split
    · rfl
    · simp only [find, hresolve cloud cloud', funext hlookup, resolve_fst, hensure]
  · rintro cloud cloud' tokens command o operator clock r rfl hr
    refine ⟨?_, ?_, ?_⟩
    · obtain ⟨now, hcatalog⟩ := Batch.send_catalog hr
      obtain hclear | ⟨now', hclear⟩ := Batch.clear_catalog cloud' d tokens command o operator
      · exact ⟨now, by rw [hcatalog, hclear]⟩
      · exact ⟨now, by rw [hcatalog, hclear, hensure']⟩
    · intro e
      rw [Batch.send_resolve_error_iff hr, hresolve cloud cloud']
    · intro outcome hok
      have huuids := Batch.uuids_of_send_ok hr hok
      rwa [hresolve cloud cloud'] at huuids

/-- Of every kind a collection is kept at most once, and then for good: whatever follows, the kind is not
listed again and every question about it gets the same answer. Operations on other kinds make no
difference to it, and lookups, which list nothing, fail for want of a collection just as long as none is
kept. -/
theorem collection_is_kept (before after : List (Cloud × Operation)) (c d : Catalog) (kind : Kind)
    (hc : Becomes empty before c) (hd : Becomes c after d) :
    (∀ records, (c.shelf kind).cached = some records →
      (d.shelf kind).cached = some records ∧ d.listed.count kind = c.listed.count kind ∧
        AnswersAlike kind c d) ∧
    ((∀ entry ∈ after, entry.2.kind ≠ kind) →
      d.shelf kind = c.shelf kind ∧ d.listed.count kind = c.listed.count kind) ∧
    (∀ cloud, (d.shelf kind).cached = none →
      (d.ensure cloud kind).1.listed = d.listed ++ [kind] ∧
        ((d.ensure cloud kind).1.shelf kind).cached =
          (cloud.list d.listed.length kind).outcome.toOption) ∧
    ∀ cloud uuid, (Operation.lookup kind uuid).perform cloud d = some (d, .record (d.lookup kind uuid)) ∧
      (d.lookup kind uuid = .error (.notCached kind) ↔ (d.shelf kind).cached = none) := by
  have hlabel := (grows_becomes labelled_empty hc).labelled
  have hgrows := grows_becomes hlabel hd
  refine ⟨?_, ?_, fun cloud hnone => ensure_of_unset hgrows.labelled hnone cloud,
    fun cloud uuid => ⟨rfl, lookup_eq_notCached_iff hgrows.labelled kind uuid⟩⟩
  · intro records hk
    have hkept := hgrows.kept kind records hk
    exact ⟨hkept, hgrows.count_eq (.inr (by simp [hk])), answersAlike hlabel hgrows.labelled hk hkept⟩
  · intro hothers
    have hnot : ¬ ∃ entry ∈ after, entry.2.kind = kind := fun ⟨entry, hmem, hk⟩ => hothers entry hmem hk
    exact ⟨hgrows.others kind hnot, hgrows.count_eq (.inl hnot)⟩

open Batch (yard yardOptions yardOperator) in
theorem yard_is_kept :
    ∃ c d, Becomes empty [(yard.cloud, .ensure .server)] c ∧
      Becomes c [({ yard with listings := [none, some (.transport "")] }.cloud, .ensure .storage),
        (yard.cloud, .send ["a", "b", "a"] .startServer yardOptions yardOperator ⟨0⟩)] d ∧
      (d.shelf .server).cached = some (yard.records .server) ∧ d.listed = [.server, .storage] ∧
      AnswersAlike .server c d := by
  have hrun : Batch.Floor.run Batch.yardSetup 2 0 [("a", "a"), ("b", "b"), ("a", "a")] =
      some (Batch.yardFloor ["a", "b", "a"] 9) := Batch.Floor.loop_eq_some_iff.mpr ⟨9, rfl, rfl⟩
  let before := (empty.ensure yard.cloud .server).1
  let between := (before.ensure { yard with listings := [none, some (.transport "")] }.cloud .storage).1
  have hsend : Batch.send yard.cloud between ["a", "b", "a"] .startServer yardOptions yardOperator ⟨0⟩ =
      some _ := Batch.send_eq_some_iff.mpr (.inr ⟨_, _, rfl, hrun, rfl⟩)
  have hstart : (Operation.send ["a", "b", "a"] .startServer yardOptions yardOperator ⟨0⟩).perform
      yard.cloud between = some (_, _) := Option.map_eq_some_iff.mpr ⟨_, hsend, rfl⟩
  have hlist : (Operation.ensure .storage).perform
      { yard with listings := [none, some (.transport "")] }.cloud before = some (between, _) := rfl
  have hbefore : Becomes empty [(yard.cloud, .ensure .server)] before := .step rfl .refl
  have hafter := Becomes.step hlist (.step hstart .refl)
  obtain ⟨hkept, _⟩ := collection_is_kept _ _ _ _ .server hbefore hafter
  obtain ⟨hserver, _, halike⟩ := hkept (yard.records .server) rfl
  exact ⟨_, _, hbefore, hafter, hserver, rfl, halike⟩

end FleetControl.Catalog
