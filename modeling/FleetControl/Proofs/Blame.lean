import FleetControl.Proofs.Refusals

namespace FleetControl

inductive Misleads (records : List Record) (token : String) : ResolveError → Prop
  | nothing : (∀ r ∈ records, ¬ r.Matches token) → Misleads records token (.notFound token)
  | several {r s : Record} {uuids : List String} : r ∈ records → s ∈ records → r.Matches token →
    s.Matches token → r.uuid ≠ s.uuid → Misleads records token (.ambiguous token uuids)

theorem misleads_of_only {records : List Record} {token : String} {why : ResolveError}
    (h : (Match.ofRecords token records).only = .error why) : Misleads records token why := by
  have hmem (u : String) : u ∈ (Match.ofRecords token records).uuids ↔
      ∃ r ∈ records, r.Matches token ∧ r.uuid = u := Match.mem_uuids_iff
  have hnodup := Match.nodup_uuids token records
  have hanswers := Match.answers_ofRecords token records
  rw [h] at hanswers
  generalize (Match.ofRecords token records).uuids = us at hmem hnodup hanswers
  cases hanswers with
  | notFound =>
    refine .nothing fun r hr hmatches => ?_
    exact List.not_mem_nil ((hmem r.uuid).mpr ⟨r, hr, hmatches, rfl⟩)
  | ambiguous hlength =>
    obtain ⟨u, v, rest, rfl⟩ : ∃ u v rest, us = u :: v :: rest := by
      match us with
      | u :: v :: rest => exact ⟨u, v, rest, rfl⟩
    have hne : u ≠ v := by
      rintro rfl
      simp at hnodup
    obtain ⟨r, hr, hr', rfl⟩ := (hmem u).mp (by simp)
    obtain ⟨s, hs, hs', rfl⟩ := (hmem v).mp (by simp)
    exact .several hr hs hr' hs' hne

namespace Catalog

variable {cloud : Cloud} {c : Catalog} {kind : Kind} {token : String} {tokens : List String}
  {why : ResolveError}

theorem ensure_snd_of_unset (cloud : Cloud) (hc : c.Labelled) (hk : (c.shelf kind).cached = none) :
    (c.ensure cloud kind).2 = (cloud.list c.listed.length kind).outcome.mapError (.fetch kind) := by
  have he := ensures_ensure cloud hc kind
  generalize c.ensure cloud kind = r at he ⊢
  obtain ⟨d, answer⟩ := r
  cases he with
  | kept hk' => cases hk.symm.trans hk'
  | filled _ hout | failed _ hout =>
    rw [hout]
    rfl

inductive Stumbles (cloud : Cloud) (c : Catalog) (kind : Kind) (token : String) : ResolveError → Prop
  | unlisted {e : ApiError} : (cloud.list c.listed.length kind).outcome = .error e →
    Stumbles cloud c kind token (.fetch kind e)
  | misled {records : List Record} {why : ResolveError} :
    (cloud.list c.listed.length kind).outcome = .ok records → Misleads records token why →
    Stumbles cloud c kind token why

theorem stumbles_of_resolveOne (hc : c.Labelled) (hk : (c.shelf kind).cached = none)
    (h : (c.resolveOne cloud kind token).2 = .error why) : Stumbles cloud c kind token why := by
  have hensure := ensure_snd_of_unset cloud hc hk
  cases hout : (cloud.list c.listed.length kind).outcome with
  | error e =>
    rw [hout] at hensure
    simp only [resolveOne, hensure, Except.mapError, Except.bind] at h
    cases h
    exact .unlisted hout
  | ok records =>
    rw [hout] at hensure
    have hshelf := cached_of_ensure_ok hc hensure
    simp only [resolveOne, hensure, Except.mapError, Except.bind, hshelf, Shelf.resolve] at h
    exact .misled hout (misleads_of_only h)

theorem exists_of_resolve_error (hne : tokens ≠ []) (h : (c.resolve cloud kind tokens).2 = .error why) :
    ∃ token ∈ tokens, (c.resolveOne cloud kind token).2 = .error why := by
  cases hensure : (c.ensure cloud kind).2 with
  | error e =>
    obtain ⟨token, hmem⟩ := List.exists_mem_of_ne_nil tokens hne
    simp only [resolve, hensure, Except.bind] at h
    cases h
    exact ⟨token, hmem, by simp only [resolveOne, hensure, Except.bind]⟩
  | ok records =>
    simp only [resolve, hensure, Except.bind] at h
    obtain ⟨front, token, rest, rfl, _, htoken⟩ := mapM_error_iff.mp h
    exact ⟨token, by simp, by simpa only [resolveOne, hensure, Except.bind] using htoken⟩

end Catalog

namespace CommandLine.Invocation

open Catalog (Stumbles)

variable {i : Invocation} {cloud : Cloud} {o : Batch.Options} {operator : Batch.Operator}
  {clock : Progress.TimeOfDay} {d : Dispatched} {e : ProgramError} {c : Catalog} {command : Command}
  {kind : Kind} {token : String} {api : ApiError} {why : ResolveError}

/-- Tokens of the command line with the catalog and the kind that they are looked up in, each of which needs a
listing of the kind. -/
inductive Seeks (i : Invocation) (cloud : Cloud) : Catalog → Kind → String → Prop
  | display {kind : Kind} {token : String} : i.action.intent = .ok (.inspect kind) → token ∈ i.tokens →
    Seeks i cloud Catalog.empty kind token
  | medium {storage : String} : i.action.intent = .ok (.load storage) →
    Seeks i cloud Catalog.empty .storage storage
  | batch {c : Catalog} {command : Command} {token : String} : i.Sends cloud c command → ¬ i.Misnumbered →
    token ∈ i.tokens → Seeks i cloud c command.kind token

inductive Unlisted (i : Invocation) (cloud : Cloud) (kind : Kind) (e : ApiError) : Prop
  | intro {c : Catalog} {token : String} : i.Seeks cloud c kind token →
    (cloud.list c.listed.length kind).outcome = .error e → Unlisted i cloud kind e

inductive AtFault (i : Invocation) (cloud : Cloud) : ProgramError → Prop
  | rejected {e : ProgramError} : e.IsRejection → AtFault i cloud e
  | misled {c : Catalog} {kind : Kind} {token : String} {records : List Record} {why : ResolveError} :
    i.Seeks cloud c kind token → (cloud.list c.listed.length kind).outcome = .ok records →
    Misleads records token why → AtFault i cloud (.batch (.resolve why))

theorem Sends.unset (h : i.Sends cloud c command) : c.Labelled ∧ (c.shelf command.kind).cached = none := by
  cases h with
  | change _ => exact ⟨Catalog.labelled_empty, rfl⟩
  | load _ _ =>
    have hgrows := Catalog.grows_ensure cloud Catalog.labelled_empty .storage
    exact ⟨hgrows.labelled, congrArg Shelf.cached (hgrows.others .server (by decide))⟩

theorem Seeks.unset (h : i.Seeks cloud c kind token) : c.Labelled ∧ (c.shelf kind).cached = none := by
  cases h with
  | display | medium => exact ⟨Catalog.labelled_empty, rfl⟩
  | batch hsends => exact hsends.unset

inductive Stumbled (i : Invocation) (cloud : Cloud) : ProgramError → Prop
  | intro {c : Catalog} {kind : Kind} {token : String} {why : ResolveError} : i.Seeks cloud c kind token →
    Stumbles cloud c kind token why → Stumbled i cloud (.batch (.resolve why))

theorem Seeks.stumbled (h : i.Seeks cloud c kind token)
    (hwhy : (c.resolveOne cloud kind token).2 = .error why) : i.Stumbled cloud (.batch (.resolve why)) :=
  .intro h (Catalog.stumbles_of_resolveOne h.unset.1 h.unset.2 hwhy)

theorem Fails.isRejection_or_stumbled (h : i.Fails cloud e d) (hcode : e.exitCode = 2) :
    e.IsRejection ∨ i.Stumbled cloud e := by
  cases h with
  | rejected hintent => exact .inl (isRejection_of_intent hintent)
  | unnamed _ _ | miscounted _ _ => exact .inl (.batch _)
  | noMedium hintent hres =>
    have hseeks : i.Seeks cloud Catalog.empty .storage _ := .medium hintent
    exact .inr (hseeks.stumbled hres)
  | @unfound kind _ _ hintent hne hfind =>
    obtain ⟨front, token, rest, hsplit, _, hwhy⟩ := (Catalog.find_error_iff hne).mp hfind
    have hseeks : i.Seeks cloud Catalog.empty kind token := .display hintent (by simp [hsplit])
    exact .inr (hseeks.stumbled hwhy)
  | unresolved hsends hcount hresolve =>
    have hne : i.tokens ≠ [] := fun hnil => hcount (.inl hnil)
    obtain ⟨token, hmem, hwhy⟩ := Catalog.exists_of_resolve_error hne hresolve
    have hseeks := Seeks.batch hsends hcount hmem
    exact .inr (hseeks.stumbled hwhy)
  | unconfirmed hun => cases hun <;> cases hcode
  | inPart => cases hcode

theorem exitCode_of_atFault (h : i.AtFault cloud e) : e.exitCode = 2 := by
  cases h with
  | rejected he => exact he.exitCode
  | misled => rfl

theorem not_atFault_fetch : ¬ i.AtFault cloud (.batch (.resolve (.fetch kind api))) := by
  rintro (⟨⟨⟩⟩ | ⟨_, _, ⟨⟩⟩)

theorem dispatch_of_unlisted (h : i.Unlisted cloud kind api) :
    ∃ d, i.dispatch cloud o operator clock = some d ∧
      d.result = .error (.batch (.resolve (.fetch kind api))) := by
  obtain @⟨c, token, hseeks, hout⟩ := h
  have hensure := Catalog.ensure_snd_of_unset cloud hseeks.unset.1 hseeks.unset.2
  rw [hout] at hensure
  cases hseeks with
  | display hintent hmem =>
    have hne := List.ne_nil_of_mem hmem
    have hinspect : (Batch.inspect cloud Catalog.empty kind i.tokens).2 = .error (.resolve (.fetch kind api)) := by
      simp [Catalog.inspect_eq cloud Catalog.empty kind hne, Catalog.find, Catalog.resolve, hensure,
        Except.mapError, Except.bind]
    refine ⟨_, dispatch_of_takes (.shown hintent), ?_⟩
    rw [hinspect]
    rfl
  | medium hintent =>
    have hres : (Catalog.empty.resolveOne cloud .storage token).2 = .error (.fetch .storage api) := by
      simp [Catalog.resolveOne, hensure, Except.mapError, Except.bind]
    exact ⟨_, dispatch_of_takes (.noMedium hintent hres), rfl⟩
  | @batch _ command _ hsends hcount hmem =>
    have hres : (c.resolve cloud command.kind i.tokens).2 = .error (.fetch command.kind api) := by
      simp [Catalog.resolve, hensure, Except.mapError, Except.bind]
    have hsend : Batch.send cloud c i.tokens command (i.options o) operator clock =
        some ⟨.error (.resolve (.fetch command.kind api)), (c.ensure cloud command.kind).1, [], none, []⟩ := by
      simp only [Batch.send, Batch.clear_of_resolve_error (not_misnumbered_iff.mp hcount) hres]
    exact ⟨_, dispatch_of_takes (.sent hsends hsend), rfl⟩

theorem unlisted_iff : i.Unlisted cloud kind api ↔ ∃ d, i.dispatch cloud o operator clock = some d ∧
    d.result = .error (.batch (.resolve (.fetch kind api))) := by
  refine ⟨dispatch_of_unlisted, ?_⟩
  rintro ⟨d, h, hd⟩
  obtain ⟨⟨⟩⟩ | ⟨hseeks, hstumbles⟩ := (fails_of_dispatch h hd).isRejection_or_stumbled rfl
  cases hstumbles with
  | unlisted hout => exact ⟨hseeks, hout⟩
  | misled _ hmisleads => cases hmisleads

/-- An invocation ends with the exit code of faulty input if its input is at fault, and just as well if a listing
that it needs fails although the input may be in order; it does so in no other case. -/
theorem exit_two_iff_fault_or_unlisted (i : Invocation) (cloud : Cloud) (o : Batch.Options)
    (operator : Batch.Operator) (clock : Progress.TimeOfDay) :
    (∀ kind api, i.Unlisted cloud kind api ↔ ∃ d, i.dispatch cloud o operator clock = some d ∧
      d.result = .error (.batch (.resolve (.fetch kind api)))) ∧
    ∀ d e, i.dispatch cloud o operator clock = some d → d.result = .error e →
      (e.exitCode = 2 ↔ i.AtFault cloud e ∨ ∃ kind api, i.Unlisted cloud kind api) ∧
      ¬ (i.AtFault cloud e ∧ ∃ kind api, i.Unlisted cloud kind api) := by
  refine ⟨fun kind api => unlisted_iff, ?_⟩
  intro d e h hd
  have hfetch {kind : Kind} {api : ApiError} (hunlisted : i.Unlisted cloud kind api) :
      e = .batch (.resolve (.fetch kind api)) := by
    obtain ⟨d', h', hd'⟩ : ∃ d', i.dispatch cloud o operator clock = some d' ∧
        d'.result = .error (.batch (.resolve (.fetch kind api))) := dispatch_of_unlisted hunlisted
    obtain rfl := Option.some.inj (h.symm.trans h')
    exact Except.error.inj (hd.symm.trans hd')
  refine ⟨⟨?_, ?_⟩, ?_⟩
  · intro hcode
    obtain hrejection | ⟨hseeks, hstumbles⟩ := (fails_of_dispatch h hd).isRejection_or_stumbled hcode
    · exact .inl (.rejected hrejection)
    · cases hstumbles with
      | unlisted hout => exact .inr ⟨_, _, hseeks, hout⟩
      | misled hout hmisleads => exact .inl (.misled hseeks hout hmisleads)
  · rintro (hfault | ⟨kind, api, hunlisted⟩)
    · exact exitCode_of_atFault hfault
    · rw [hfetch hunlisted]
      rfl
  · rintro ⟨hfault, kind, api, hunlisted⟩
    rw [hfetch hunlisted] at hfault
    exact not_atFault_fetch hfault

def tapeLoad : Invocation := ⟨plainFlags, .load (some "tape"), ["x"]⟩

theorem unknown_medium_is_users_fault :
    ∃ d e, tapeLoad.dispatch library.cloud Batch.yardOptions Batch.yardOperator ⟨0⟩ = some d ∧
      d.result = .error e ∧ e = .batch (.resolve (.notFound "tape")) ∧ tapeLoad.AtFault library.cloud e ∧
      e.exitCode = 2 := by
  have hintent : tapeLoad.action.intent = .ok (.load "tape") := by decide
  have hres : (Catalog.empty.resolveOne library.cloud .storage "tape").2 = .error (.notFound "tape") := by
    decide +kernel
  have hnone : (Match.ofRecords "tape" (library.records .storage)).only = .error (.notFound "tape") := by
    decide +kernel
  have hfault : tapeLoad.AtFault library.cloud (.batch (.resolve (.notFound "tape"))) :=
    .misled (.medium hintent) rfl (misleads_of_only hnone)
  have h : tapeLoad.dispatch library.cloud Batch.yardOptions Batch.yardOperator ⟨0⟩ = some _ :=
    dispatch_of_takes (.noMedium hintent hres)
  obtain ⟨_, hcode⟩ := exit_two_iff_fault_or_unlisted tapeLoad library.cloud Batch.yardOptions
    Batch.yardOperator ⟨0⟩
  exact ⟨_, _, h, rfl, rfl, hfault, (hcode _ _ h rfl).1.mpr (.inl hfault)⟩

def singleStart : Invocation := ⟨plainFlags, .startServers, ["a"]⟩

def brokenYard : Script := { Batch.yard with listings := [some (.transport "reset")] }

theorem broken_listing_blames_input :
    singleStart.Unlisted brokenYard.cloud .server (.transport "reset") ∧
      ∃ d e, singleStart.dispatch brokenYard.cloud Batch.yardOptions Batch.yardOperator ⟨0⟩ = some d ∧
        d.result = .error e ∧ e = .batch (.resolve (.fetch .server (.transport "reset"))) ∧ e.exitCode = 2 ∧
        ¬ singleStart.AtFault brokenYard.cloud e := by
  have hsends : singleStart.Sends brokenYard.cloud Catalog.empty .startServer := .change rfl
  have hcount : ¬ singleStart.Misnumbered := by simp [Misnumbered, singleStart, Action.wantsOne]
  have hunlisted : singleStart.Unlisted brokenYard.cloud .server (.transport "reset") :=
    ⟨.batch hsends hcount List.mem_cons_self, rfl⟩
  obtain ⟨d, h, hd⟩ : ∃ d,
      singleStart.dispatch brokenYard.cloud Batch.yardOptions Batch.yardOperator ⟨0⟩ = some d ∧
      d.result = .error (.batch (.resolve (.fetch .server (.transport "reset")))) :=
    dispatch_of_unlisted hunlisted
  exact ⟨hunlisted, d, _, h, hd, rfl, rfl, not_atFault_fetch⟩

end CommandLine.Invocation
end FleetControl
