import FleetControl.Dispatch
import FleetControl.Proofs.Candidates
import FleetControl.Proofs.Completion
import FleetControl.Proofs.InOrder

/-!
The result of an invocation tells what was done. A batch that ran ends well if none of its items failed and
in part otherwise; every other error leaves the cloud and the standard output alone.
-/
namespace FleetControl

inductive ProgramError.IsRejection : ProgramError → Prop
  | stated (message : String) : IsRejection (.rejected message)
  | batch (why : Rejection) : IsRejection (.batch (.rejected why))

theorem ProgramError.IsRejection.exitCode {e : ProgramError} (h : e.IsRejection) : e.exitCode = 2 := by
  cases h <;> rfl

namespace Batch

variable {cloud : Cloud} {c : Catalog} {tokens : List String} {command : Command} {o : Options}
  {operator : Operator} {clock : Progress.TimeOfDay} {r : Sent}

inductive Ends (cloud : Cloud) (c : Catalog) (tokens : List String) (command : Command) (o : Options)
    (operator : Operator) (clock : Progress.TimeOfDay) (r : Sent) : Prop
  | refused {e : BatchError} : (clear cloud c tokens command o operator).items = .error e →
    r.result = .error e → r.floor = none → Ends cloud c tokens command o operator clock r
  | ran {f : Floor} : Reached cloud c tokens command o operator clock f →
    (∀ p, Floor.timer? (setup cloud command o clock) f p = none) →
    r.result = .ok f.outcome → r.floor = some f → Ends cloud c tokens command o operator clock r

theorem ends_of_send (h : send cloud c tokens command o operator clock = some r) :
    Ends cloud c tokens command o operator clock r := by
  cases hresult : r.result with
  | error e =>
    obtain ⟨hitems, hfloor, _⟩ := send_error h hresult
    exact .refused hitems hresult hfloor
  | ok outcome =>
    obtain ⟨items, f, hitems, hrun, hfloor, rfl⟩ := send_ok h hresult
    obtain ⟨hr, hidle⟩ := Floor.loop_reaches hrun
    exact .ran ⟨items, hitems, hr⟩ hidle hresult hfloor

theorem inspect_isOk_iff {kind : Kind} :
    (∃ records, (inspect cloud c kind tokens).2 = .ok records) ↔
      tokens ≠ [] ∧ ∀ token ∈ tokens, ∃ uuid, (c.resolveOne cloud kind token).2 = .ok uuid := by
  by_cases hne : tokens = []
  · simp [inspect, hne]
  · rw [← Catalog.find_isOk_iff hne]
    cases h : (c.find cloud kind tokens).2 <;> simp [inspect, hne, h, Except.mapError]

variable {α : Type}

theorem Outcome.failed_eq_countP (outcome : Outcome α) :
    outcome.failed = outcome.items.countP (·.error?.isSome) := by
  rw [failed, errors, List.length_filterMap_eq_countP]

theorem Outcome.failed_eq_zero_iff {outcome : Outcome α} :
    outcome.failed = 0 ↔ ∀ item ∈ outcome.items, item.error? = none := by
  rw [failed_eq_countP, List.countP_eq_zero]
  simp

def okLines (items : List (Item α)) : List String :=
  (items.filter (·.error?.isNone)).map (Report.itemLine · "ok")

def errorLines (items : List (Item α)) : List String :=
  items.filterMap fun item => item.error?.map fun e => Report.itemLine item e.shown

def objects (items : List (Item (Option FleetControl.Record))) : List Json :=
  items.map (Report.itemJson Report.resultJson)

def hasError : Json → Bool
  | .object fields => fields.any (·.1 == "error")
  | _ => false

inductive Reports (items : List (Item (Option FleetControl.Record))) : OutputFormat → Nat → Printed → Prop
  | human : Reports items .human (errorLines items).length
    ⟨String.join (okLines items), String.join (errorLines items)⟩
  | json : Reports items .json ((objects items).countP hasError)
    ⟨Report.line (Json.list (objects items)).pretty, ""⟩

theorem length_errorLines (items : List (Item α)) :
    (errorLines items).length = items.countP (·.error?.isSome) := by
  rw [errorLines, List.length_filterMap_eq_countP]
  simp only [Option.isSome_map]

theorem hasError_itemJson (toJson : α → Json) (item : Item α) :
    hasError (Report.itemJson toJson item) = item.error?.isSome := by
  unfold Report.itemJson Item.error?
  cases item.result <;> rfl

theorem join_itemOut (items : List (Item α)) :
    String.join (items.map Report.itemOut) = String.join (okLines items) := by
  induction items with
  | nil => rfl
  | cons item items ih =>
    rw [List.map_cons, String.join_cons, ih]
    cases h : item.result with
    | ok a =>
      have hlines : okLines (item :: items) = Report.itemOut item :: okLines items := by
        simp [okLines, Item.error?, Report.itemOut, h]
      rw [hlines, String.join_cons]
    | error e =>
      have hlines : okLines (item :: items) = okLines items := by
        simp [okLines, Item.error?, h]
      simp [hlines, Report.itemOut, h]

theorem join_itemErr (items : List (Item α)) :
    String.join (items.map Report.itemErr) = String.join (errorLines items) := by
  induction items with
  | nil => rfl
  | cons item items ih =>
    rw [List.map_cons, String.join_cons, ih]
    cases h : item.result with
    | ok a =>
      have hlines : errorLines (item :: items) = errorLines items := by
        simp [errorLines, Item.error?, h]
      simp [hlines, Report.itemErr, h]
    | error e =>
      have hlines : errorLines (item :: items) = Report.itemErr item :: errorLines items := by
        simp [errorLines, Item.error?, Report.itemErr, h]
      rw [hlines, String.join_cons]

theorem reports_outcome (format : OutputFormat) (outcome : Outcome (Option FleetControl.Record)) :
    Reports outcome.items format (outcome.items.countP (·.error?.isSome))
      (Report.outcome format Report.resultJson outcome) := by
  cases format with
  | human =>
    have hprinted : Report.outcome .human Report.resultJson outcome =
        ⟨String.join (okLines outcome.items), String.join (errorLines outcome.items)⟩ := by
      rw [← join_itemOut, ← join_itemErr]
      rfl
    rw [hprinted, ← length_errorLines]
    exact .human
  | json =>
    have hcount : outcome.items.countP (·.error?.isSome) = (objects outcome.items).countP hasError := by
      rw [objects, List.countP_map]
      simp only [Function.comp_def, hasError_itemJson]
    rw [hcount]
    exact .json

theorem verdict_eq_ok_iff {outcome : Outcome α} :
    Dispatched.verdict outcome = .ok () ↔ ∀ item ∈ outcome.items, item.error? = none := by
  rw [← Outcome.failed_eq_zero_iff, Dispatched.verdict, Outcome.hasFailures]
  by_cases h : 0 < outcome.failed
  · simp [h, Nat.ne_of_gt h]
  · simp [Nat.eq_zero_of_not_pos h]

theorem verdict_eq_error_iff {outcome : Outcome α} {e : ProgramError} :
    Dispatched.verdict outcome = .error e ↔
      0 < outcome.failed ∧ e = .partialFailure outcome.failed outcome.items.length := by
  rw [Dispatched.verdict, Outcome.hasFailures]
  by_cases h : 0 < outcome.failed
  · simp [h, eq_comm]
  · simp [h]

end Batch

theorem BatchError.exitCode_mem (e : BatchError) : (ProgramError.batch e).exitCode ∈ [1, 2, 3] := by
  cases e <;> simp [ProgramError.exitCode]

namespace Dispatched

def requests (d : Dispatched) : List (Nat × Request) := (d.floor.map Batch.Floor.sent).getD []

end Dispatched

namespace CommandLine.Invocation

open Batch (Floor)

variable {i : Invocation} {cloud : Cloud} {o : Batch.Options} {operator : Batch.Operator}
  {clock : Progress.TimeOfDay} {d : Dispatched}

inductive Sends (i : Invocation) (cloud : Cloud) : Catalog → Command → Prop
  | change {command : Command} : i.action.intent = .ok (.change command) →
    Sends i cloud Catalog.empty command
  | load {storage uuid : String} : i.action.intent = .ok (.load storage) →
    (Catalog.empty.resolveOne cloud .storage storage).2 = .ok uuid →
    Sends i cloud (Catalog.empty.resolveOne cloud .storage storage).1 (.loadCdrom uuid)

def options (i : Invocation) (o : Batch.Options) : Batch.Options :=
  { o with exactlyOne := i.action.wantsOne }

/-- What an invocation comes to, in whatever order jobs that are due together move. -/
inductive Comes (i : Invocation) (cloud : Cloud) (o : Batch.Options) (operator : Batch.Operator)
    (clock : Progress.TimeOfDay) : Dispatched → Prop
  | rejected {e : ProgramError} : i.action.intent = .error e →
    Comes i cloud o operator clock (.refused Catalog.empty e)
  | noMedium {storage : String} {e : ResolveError} : i.action.intent = .ok (.load storage) →
    (Catalog.empty.resolveOne cloud .storage storage).2 = .error e →
    Comes i cloud o operator clock
      (.refused (Catalog.empty.resolveOne cloud .storage storage).1 (.batch (.resolve e)))
  | shown {kind : Kind} : i.action.intent = .ok (.inspect kind) →
    Comes i cloud o operator clock (.ofRecords i.flags.output
      (Batch.inspect cloud Catalog.empty kind i.tokens).1 (Batch.inspect cloud Catalog.empty kind i.tokens).2)
  | sent {c : Catalog} {command : Command} {r : Batch.Sent} : i.Sends cloud c command →
    Batch.Ends cloud c i.tokens command (i.options o) operator clock r →
    Comes i cloud o operator clock (.ofSent i.flags.output r)

inductive Takes (i : Invocation) (cloud : Cloud) (o : Batch.Options) (operator : Batch.Operator)
    (clock : Progress.TimeOfDay) : Dispatched → Prop
  | rejected {e : ProgramError} : i.action.intent = .error e →
    Takes i cloud o operator clock (.refused Catalog.empty e)
  | noMedium {storage : String} {e : ResolveError} : i.action.intent = .ok (.load storage) →
    (Catalog.empty.resolveOne cloud .storage storage).2 = .error e →
    Takes i cloud o operator clock
      (.refused (Catalog.empty.resolveOne cloud .storage storage).1 (.batch (.resolve e)))
  | shown {kind : Kind} : i.action.intent = .ok (.inspect kind) →
    Takes i cloud o operator clock (.ofRecords i.flags.output
      (Batch.inspect cloud Catalog.empty kind i.tokens).1 (Batch.inspect cloud Catalog.empty kind i.tokens).2)
  | sent {c : Catalog} {command : Command} {r : Batch.Sent} : i.Sends cloud c command →
    Batch.send cloud c i.tokens command (i.options o) operator clock = some r →
    Takes i cloud o operator clock (.ofSent i.flags.output r)

theorem takes_of_dispatch (h : i.dispatch cloud o operator clock = some d) :
    i.Takes cloud o operator clock d := by
  have hsent {c : Catalog} {command : Command} (hsends : i.Sends cloud c command)
      (h : i.send cloud c command o operator clock = some d) : i.Takes cloud o operator clock d := by
    obtain ⟨r, hr, rfl⟩ := Option.map_eq_some_iff.mp h
    exact .sent hsends hr
  unfold dispatch at h
  split at h
  next e hintent =>
    obtain rfl := Option.some.inj h
    exact .rejected hintent
  next kind hintent =>
    obtain rfl := Option.some.inj h
    exact .shown hintent
  next storage hintent =>
    split at h
    next c e hres =>
      obtain rfl := Option.some.inj h
      obtain rfl : _ = c := congrArg Prod.fst hres
      exact .noMedium hintent (congrArg Prod.snd hres)
    next c uuid hres =>
      obtain rfl : _ = c := congrArg Prod.fst hres
      exact hsent (.load hintent (congrArg Prod.snd hres)) h
  next command hintent => exact hsent (.change hintent) h

theorem dispatch_of_sends {c : Catalog} {command : Command} (h : i.Sends cloud c command) :
    i.dispatch cloud o operator clock = i.send cloud c command o operator clock := by
  cases h with
  | change hintent => simp only [dispatch, hintent]
  | @load storage uuid hintent hres =>
    have hpair : Catalog.empty.resolveOne cloud .storage storage =
        ((Catalog.empty.resolveOne cloud .storage storage).1, .ok uuid) := Prod.ext rfl hres
    simp only [dispatch, hintent]
    rw [hpair]

theorem dispatch_of_takes (h : i.Takes cloud o operator clock d) :
    i.dispatch cloud o operator clock = some d := by
  cases h with
  | rejected hintent => simp only [dispatch, hintent]
  | @noMedium storage e hintent hres =>
    have hpair : Catalog.empty.resolveOne cloud .storage storage =
        ((Catalog.empty.resolveOne cloud .storage storage).1, .error e) := Prod.ext rfl hres
    simp only [dispatch, hintent]
    rw [hpair]
  | shown hintent => simp only [dispatch, hintent]
  | sent hsends hr => rw [dispatch_of_sends hsends, send, ← options, hr, Option.map_some]

theorem comes_of_dispatch (h : i.dispatch cloud o operator clock = some d) :
    i.Comes cloud o operator clock d := by
  cases takes_of_dispatch h with
  | rejected hintent => exact .rejected hintent
  | noMedium hintent hres => exact .noMedium hintent hres
  | shown hintent => exact .shown hintent
  | sent hsends hr => exact .sent hsends (Batch.ends_of_send hr)

theorem dispatch_isSome (h : ∀ wait, o.wait = some wait → 0 < wait.interval) :
    (i.dispatch cloud o operator clock).isSome := by
  have hsent (c : Catalog) (command : Command) : (i.send cloud c command o operator clock).isSome := by
    rw [send, Option.isSome_map]
    exact Batch.send_isSome _ _ _ _ _ _ _ h
  unfold dispatch
  split
  · rfl
  · rfl
  · split
    · rfl
    · exact hsent _ _
  · exact hsent _ _

def Displays (i : Invocation) (cloud : Cloud) : Prop :=
  ∃ kind, i.action = .display kind ∧ i.tokens ≠ [] ∧
    ∀ token ∈ i.tokens, ∃ uuid, (Catalog.empty.resolveOne cloud kind token).2 = .ok uuid

theorem intent_eq_inspect_iff {action : Action} {kind : Kind} :
    action.intent = .ok (.inspect kind) ↔ action = .display kind := by
  have hchange (r : Except Rejection Command) : Action.change r ≠ .ok (.inspect kind) := by
    cases r <;> simp [Action.change]
  cases action with
  | display => simp [Action.intent]
  | load storage =>
    simp only [Action.intent]
    split <;> simp
  | modifyStorages | modifyNetworks | modifyRouters => simp [Action.intent, hchange]
  | _ => simp [Action.intent]

theorem isRejection_of_intent {action : Action} {e : ProgramError} (h : action.intent = .error e) :
    e.IsRejection := by
  have hchange (r : Except Rejection Command) (h : Action.change r = .error e) : e.IsRejection := by
    cases r with
    | ok command => cases h
    | error why =>
      cases h
      exact .batch why
  cases action with
  | load storage =>
    simp only [Action.intent] at h
    split at h <;> cases h
    exact .stated _
  | modifyStorages | modifyNetworks | modifyRouters => exact hchange _ h
  | _ => cases h

theorem Sends.not_display {c : Catalog} {command : Command} (h : i.Sends cloud c command) (kind : Kind) :
    i.action ≠ .display kind := by
  rw [ne_eq, ← intent_eq_inspect_iff]
  cases h with
  | change h => simp [h]
  | load h _ => simp [h]

inductive Concludes (i : Invocation) (cloud : Cloud) (d : Dispatched) : Prop
  | refused {e : ProgramError} : ¬ i.Displays cloud → d.result = .error e → e.exitCode ∈ [1, 2, 3] →
    d.floor = none → d.printed.out = "" → Concludes i cloud d
  | displayed : i.Displays cloud → d.result = .ok () → d.floor = none → Concludes i cloud d
  | ran {c : Catalog} {command : Command} {f : Floor} : i.Sends cloud c command →
    Batch.InOrder cloud c i.tokens command f.outcome f → d.floor = some f →
    d.result = Dispatched.verdict f.outcome →
    d.printed = Report.outcome i.flags.output Report.resultJson f.outcome → Concludes i cloud d

theorem concludes (h : i.Comes cloud o operator clock d) : i.Concludes cloud d := by
  have hnot (hne : ∀ kind, i.action ≠ .display kind) : ¬ i.Displays cloud :=
    fun ⟨kind, hkind, _⟩ => hne kind hkind
  cases h with
  | @rejected e hintent =>
    refine .refused (hnot fun kind hkind => ?_) rfl ?_ rfl rfl
    · simp [intent_eq_inspect_iff.mpr hkind] at hintent
    · simp [(isRejection_of_intent hintent).exitCode]
  | noMedium hintent _ =>
    refine .refused (hnot fun kind hkind => ?_) rfl (BatchError.exitCode_mem _) rfl rfl
    simp [intent_eq_inspect_iff.mpr hkind] at hintent
  | @shown kind hintent =>
    have hkind := intent_eq_inspect_iff.mp hintent
    have hiff : i.Displays cloud ↔
        ∃ records, (Batch.inspect cloud Catalog.empty kind i.tokens).2 = .ok records := by
      rw [Batch.inspect_isOk_iff, Displays]
      constructor
      · rintro ⟨other, hother, h⟩
        obtain rfl : other = kind := by simpa [hkind] using hother.symm
        exact h
      · exact fun h => ⟨kind, hkind, h⟩
    cases hres : (Batch.inspect cloud Catalog.empty kind i.tokens).2 with
    | error e =>
      refine .refused (mt hiff.mp ?_) rfl (BatchError.exitCode_mem e) rfl rfl
      simp [hres]
    | ok records => exact .displayed (hiff.mpr ⟨records, hres⟩) rfl rfl
  | @sent c command r hsends hends =>
    cases hends with
    | refused _ hresult hfloor =>
      simp only [Dispatched.ofSent, hresult]
      exact .refused (hnot hsends.not_display) rfl (BatchError.exitCode_mem _) hfloor rfl
    | ran hr hidle hresult hfloor =>
      simp only [Dispatched.ofSent, hresult]
      exact .ran hsends (Batch.inOrder_of_reached hr hidle) hfloor rfl rfl

namespace Concludes

theorem ok_iff (h : i.Concludes cloud d) : d.result = .ok () ↔
    (∃ f, d.floor = some f ∧ ∀ item ∈ f.outcome.items, item.error? = none) ∨ i.Displays cloud := by
  cases h with
  | refused hnot hresult _ hfloor _ => simp [hresult, hfloor, hnot]
  | displayed hdisplays hresult _ => simp [hresult, hdisplays]
  | ran hsends _ hfloor hresult _ =>
    have hnot : ¬ i.Displays cloud := fun ⟨kind, hkind, _⟩ => hsends.not_display kind hkind
    simp [hresult, hfloor, hnot, Batch.verdict_eq_ok_iff]

theorem partialFailure_iff (h : i.Concludes cloud d) (failed total : Nat) :
    d.result = .error (.partialFailure failed total) ↔
      ∃ f, d.floor = some f ∧ (∃ item ∈ f.outcome.items, item.error? ≠ none) ∧
        failed = f.outcome.items.countP (·.error?.isSome) ∧ total = i.tokens.length := by
  cases h with
  | refused _ hresult hcode hfloor _ =>
    have hne : ∀ e : ProgramError, e.exitCode ∈ [1, 2, 3] → e ≠ .partialFailure failed total := by
      rintro e he rfl
      simp [ProgramError.exitCode] at he
    simp [hresult, hfloor, hne _ hcode]
  | displayed _ hresult hfloor => simp [hresult, hfloor]
  | @ran _ _ f _ hinOrder hfloor hresult _ =>
    have hfails : 0 < f.outcome.failed ↔ ∃ item ∈ f.outcome.items, item.error? ≠ none := by
      rw [Nat.pos_iff_ne_zero, ne_eq, Batch.Outcome.failed_eq_zero_iff]
      simp
    rw [hresult, Batch.verdict_eq_error_iff, hfails]
    constructor
    · rintro ⟨hfail, heq⟩
      cases heq
      exact ⟨f, hfloor, hfail, Batch.Outcome.failed_eq_countP _, hinOrder.length⟩
    · rintro ⟨g, hg, hfail, rfl, rfl⟩
      obtain rfl := Option.some.inj (hfloor.symm.trans hg)
      exact ⟨hfail, by rw [Batch.Outcome.failed_eq_countP, hinOrder.length]⟩

theorem ran_of_floor (h : i.Concludes cloud d) {f : Floor} (hf : d.floor = some f) :
    (∀ kind, i.action ≠ .display kind) ∧
      (∃ c command, i.Sends cloud c command ∧ Batch.InOrder cloud c i.tokens command f.outcome f) ∧
      Batch.Reports f.outcome.items i.flags.output (f.outcome.items.countP (·.error?.isSome)) d.printed := by
  cases h with
  | refused _ _ _ hfloor _ | displayed _ _ hfloor => simp [hfloor] at hf
  | ran hsends hinOrder hfloor _ hprinted =>
    obtain rfl := Option.some.inj (hfloor.symm.trans hf)
    rw [hprinted]
    exact ⟨hsends.not_display, ⟨_, _, hsends, hinOrder⟩, Batch.reports_outcome _ _⟩

theorem error_cases (h : i.Concludes cloud d) {e : ProgramError} (he : d.result = .error e) :
    (∃ failed total, e = .partialFailure failed total ∧ e.exitCode = 4 ∧ 1 ≤ failed ∧ failed ≤ total) ∨
      (e.exitCode ∈ [1, 2, 3] ∧ d.floor = none ∧ d.requests = [] ∧ d.printed.out = "") := by
  cases h with
  | refused _ hresult hcode hfloor hout =>
    obtain rfl := Except.error.inj (hresult.symm.trans he)
    exact .inr ⟨hcode, hfloor, by simp [Dispatched.requests, hfloor], hout⟩
  | displayed _ hresult _ => simp [hresult] at he
  | ran _ _ _ hresult _ =>
    obtain ⟨hpos, rfl⟩ := Batch.verdict_eq_error_iff.mp (hresult.symm.trans he)
    refine .inl ⟨_, _, rfl, rfl, hpos, ?_⟩
    rw [Batch.Outcome.failed_eq_countP]
    exact List.countP_le_length

theorem requests_of_display (h : i.Concludes cloud d) {kind : Kind} (hkind : i.action = .display kind) :
    d.requests = [] := by
  cases hfloor : d.floor with
  | none => simp [Dispatched.requests, hfloor]
  | some f => exact absurd hkind ((h.ran_of_floor hfloor).1 kind)

end Concludes

/-- An invocation that comes to an end has succeeded if its batch has run and no item failed, or if it
displays the records of its tokens; it fails in part if its batch has run and some item failed. What is
printed of a batch tells the items that failed apart. Any other error has sent and printed nothing. -/
theorem result_tells_what_was_done (i : Invocation) (cloud : Cloud) (o : Batch.Options)
    (operator : Batch.Operator) (clock : Progress.TimeOfDay) :
    ((∀ wait, o.wait = some wait → 0 < wait.interval) →
      ∃ d, i.dispatch cloud o operator clock = some d) ∧
    (∀ d, i.dispatch cloud o operator clock = some d → i.Comes cloud o operator clock d) ∧
    ∀ d, i.Comes cloud o operator clock d →
      (d.result = .ok () ↔
        (∃ f, d.floor = some f ∧ ∀ item ∈ f.outcome.items, item.error? = none) ∨ i.Displays cloud) ∧
      (∀ failed total, d.result = .error (.partialFailure failed total) ↔
        ∃ f, d.floor = some f ∧ (∃ item ∈ f.outcome.items, item.error? ≠ none) ∧
          failed = f.outcome.items.countP (·.error?.isSome) ∧ total = i.tokens.length) ∧
      (∀ f, d.floor = some f → (∀ kind, i.action ≠ .display kind) ∧
        (∃ c command, i.Sends cloud c command ∧ Batch.InOrder cloud c i.tokens command f.outcome f) ∧
        Batch.Reports f.outcome.items i.flags.output (f.outcome.items.countP (·.error?.isSome)) d.printed) ∧
      (∀ e, d.result = .error e →
        (∃ failed total, e = .partialFailure failed total ∧ e.exitCode = 4 ∧ 1 ≤ failed ∧ failed ≤ total) ∨
        (e.exitCode ∈ [1, 2, 3] ∧ d.floor = none ∧ d.requests = [] ∧ d.printed.out = "")) ∧
      ∀ kind, i.action = .display kind → d.requests = [] := by
  refine ⟨?_, fun d => comes_of_dispatch, ?_⟩
  · intro h
    exact Option.isSome_iff_exists.mp (dispatch_isSome h)
  · intro d h
    have hd := concludes h
    exact ⟨hd.ok_iff, hd.partialFailure_iff, fun f => hd.ran_of_floor, fun e => hd.error_cases,
      fun kind => hd.requests_of_display⟩

def yardInvocation : Invocation :=
  ⟨⟨none, .off, .human, true, false, some 2, none⟩, .startServers, ["a", "b"]⟩

theorem yard_fails_in_part :
    ∃ d f, yardInvocation.dispatch Batch.yard.cloud Batch.yardOptions Batch.yardOperator ⟨0⟩ = some d ∧
      d.floor = some f ∧ d.result = .error (.partialFailure 1 2) ∧ d.printed.out = "a (a): ok\n" ∧
      d.printed.err = "b (b): Request failed. Check your network connection and try again.\n" ∧
      ∃ c command, yardInvocation.Sends Batch.yard.cloud c command ∧
        Batch.InOrder Batch.yard.cloud c ["a", "b"] command f.outcome f := by
  have hrun : Floor.run Batch.yardSetup 2 0 [("a", "a"), ("b", "b")] =
      some (Batch.yardFloor ["a", "b"] 6) := Floor.loop_eq_some_iff.mpr ⟨6, rfl, rfl⟩
  have hsend : Batch.send Batch.yard.cloud Catalog.empty ["a", "b"] .startServer Batch.yardOptions
      Batch.yardOperator ⟨0⟩ = some _ := Batch.send_eq_some_iff.mpr (.inr ⟨_, _, rfl, hrun, rfl⟩)
  have hdispatch : yardInvocation.dispatch Batch.yard.cloud Batch.yardOptions Batch.yardOperator ⟨0⟩ =
      some _ := Option.map_eq_some_iff.mpr ⟨_, hsend, rfl⟩
  obtain ⟨_, hcomes, htells⟩ := result_tells_what_was_done yardInvocation Batch.yard.cloud
    Batch.yardOptions Batch.yardOperator ⟨0⟩
  obtain ⟨_, hpartial, hran, _, _⟩ := htells _ (hcomes _ hdispatch)
  obtain ⟨_, hinOrder, _⟩ := hran _ rfl
  have hresult := (hpartial 1 2).mpr ⟨_, rfl, ⟨_, List.mem_cons_of_mem _ List.mem_cons_self, nofun⟩, rfl, rfl⟩
  exact ⟨_, _, hdispatch, rfl, hresult, rfl, rfl, hinOrder⟩

end CommandLine.Invocation
end FleetControl
