import EventFlow.Api.Service
import EventFlow.Proofs.Engine.Course
import EventFlow.Proofs.Store.Mutation

/-!
# Failed requests change nothing

A request is answered with an error status only if what is done for it has failed (`Careful`).
Before it fails, nothing but the clock of the machine has been drawn on (`Harmless`): there is at
most one operation on the store, it is the last thing that may fail, and it is all or nothing.
Requests are served by `Api.serve` (`EventFlow.Api.Service`), in steps of the kinds that
`Api.Serving` has.
-/

set_option autoImplicit false

namespace EventFlow.Api

open Http (Request Response Target)
open Store (AllOrNothing Kept)

namespace Serving

variable {σ α β : Type}

/-- The result of a computation on a machine, and the machine after it. -/
def on (x : Serving σ α) (m : Machine σ) : Except Failure α × Machine σ := x.run.run m

@[simp] theorem on_pure (a : α) (m : Machine σ) : (pure a : Serving σ α).on m = (.ok a, m) := rfl

@[simp] theorem on_throw (f : Failure) (m : Machine σ) :
    (throw f : Serving σ α).on m = (.error f, m) := rfl

/-- What comes behind a failure is not done. -/
theorem on_bind_of_error {x : Serving σ α} {f : α → Serving σ β} {m m' : Machine σ} {e : Failure}
    (h : x.on m = (.error e, m')) : (x >>= f).on m = (.error e, m') := by
  change ExceptT.bindCont f (x.on m).1 (x.on m).2 = _
  rw [h]
  rfl

/-- What comes behind an answer is done with the machine as it is then. -/
theorem on_bind_of_ok {x : Serving σ α} {f : α → Serving σ β} {m m' : Machine σ} {a : α}
    (h : x.on m = (.ok a, m')) : (x >>= f).on m = (f a).on m' := by
  change ExceptT.bindCont f (x.on m).1 (x.on m).2 = _
  rw [h]
  rfl

/-- A request that changes the store draws from the supply, and its store errors become failures. -/
theorem on_changing (f : Store → Supply → Except StoreError α × Store × Supply) (m : Machine σ) :
    (changing f).on m = ((f m.store m.supply).1.mapError Failure.store,
      { m with store := (f m.store m.supply).2.1, supply := (f m.store m.supply).2.2 }) := by
  have got : (get : Serving σ (Machine σ)).on m = (.ok m, m) := rfl
  rcases called : f m.store m.supply with ⟨answer, store, supply⟩
  rw [changing, on_bind_of_ok got, called]
  cases answer <;> rfl

/-- To read a value may draw from the supply, and nothing else. -/
theorem on_reading (read : Reading α) (r : Refusal) (m : Machine σ) :
    (reading read r).on m = match read m.supply with
      | some (a, supply) => (.ok a, { m with supply })
      | none => (.error (.refused r), m) := by
  change (match read m.supply with
    | some (a, supply) => (do set { m with supply }; return a : Serving σ α)
    | none => refuse r).on m = _
  cases read m.supply <;> rfl

theorem on_running (f : Machine σ → α × Machine σ) (m : Machine σ) :
    (running f).on m = (.ok (f m).1, (f m).2) := rfl

/-- The store is left as it is, whatever comes of it. -/
def Harmless (x : Serving σ α) : Prop := ∀ m : Machine σ, m.store.Kept (x.on m).2.store

/-- A success has no error status, and a failure leaves the store as it is. -/
def Careful (x : Serving σ Response) : Prop :=
  ∀ m : Machine σ, (∀ r, (x.on m).1 = .ok r → r.status < 400) ∧
    ∀ e, (x.on m).1 = .error e → m.store.Kept (x.on m).2.store

/-! ## Computations that leave the store alone -/

/-- An answer that is there already leaves the store alone. -/
theorem harmless_pure (a : α) : Harmless (pure a : Serving σ α) := fun _ => .refl _

theorem harmless_refuse (r : Refusal) : Harmless (refuse r : Serving σ α) := fun _ => .refl _

theorem harmless_store : Harmless (store : Serving σ Store) := fun _ => .refl _

/-- To look something up leaves the store alone. -/
theorem harmless_finding (f : Store → Except StoreError α) :
    Harmless (finding f : Serving σ α) := by
  intro m
  rw [finding, on_changing]
  exact .refl _

theorem harmless_identifier (segment : List Char) :
    Harmless (identifier segment : Serving σ String) := by
  unfold identifier
  split
  · exact harmless_pure _
  · exact harmless_refuse _

/-- To read a value out of a document leaves the store alone. -/
theorem harmless_reading (read : Reading α) (r : Refusal) :
    Harmless (reading read r : Serving σ α) := by
  intro m
  rw [on_reading]
  cases read m.supply <;> exact .refl _

theorem harmless_query (read : Document → Reading α) (t : Target) :
    Harmless (query read t : Serving σ α) := harmless_reading _ _

/-- To read the body of a request leaves the store alone, whether it is well formed or not. -/
theorem harmless_body (shape : Shape) (read : Document → Reading α) (request : Request) :
    Harmless (body shape read request : Serving σ α) := by
  unfold body
  split
  · exact harmless_refuse _
  · split
    · exact harmless_refuse _
    · dsimp only
      split
      · exact harmless_reading _ _
      · exact harmless_refuse _
      · exact harmless_refuse _

/-! ## Computations that end with a response -/

/-- A response that is no error may come behind any change, so it is answered whatever was done. -/
theorem careful_respond {r : Response} (good : r.status < 400) :
    Careful (pure r : Serving σ Response) :=
  fun _ => ⟨fun _ h => Except.ok.inj h ▸ good, fun _ h => (nomatch h)⟩

/-- A failure that is thrown has changed nothing. -/
theorem careful_throw (f : Failure) : Careful (throw f : Serving σ Response) :=
  fun _ => ⟨fun _ h => (nomatch h), fun _ _ => .refl _⟩

theorem careful_refuse (r : Refusal) : Careful (refuse r : Serving σ Response) := careful_throw _

/-- A record that is shown is no error. -/
theorem careful_showing (d : Document) {status : Nat} (good : status < 400) :
    Careful (showing status d : Serving σ Response) := careful_respond good

theorem careful_listing (write : α → Document) (items : List α) :
    Careful (listing write items : Serving σ Response) := careful_showing _ (by decide)

/-- What comes first may fail as long as it leaves the store alone. -/
theorem Harmless.careful_bind {x : Serving σ α} {f : α → Serving σ Response} (hx : Harmless x)
    (hf : ∀ a, Careful (f a)) : Careful (x >>= f) := by
  intro m
  have kept := hx m
  rcases h : x.on m with ⟨e | a, m'⟩
  · rw [on_bind_of_error h]
    rw [h] at kept
    exact ⟨fun _ h => (nomatch h), fun _ _ => kept⟩
  · rw [on_bind_of_ok h]
    rw [h] at kept
    exact ⟨(hf a m').1, fun e he => kept.trans ((hf a m').2 e he)⟩

/-- An operation on the store is the last thing that fails. -/
theorem careful_changing {f : Store → Supply → Except StoreError α × Store × Supply}
    (safe : ∀ s supply, AllOrNothing s (f s supply).1 (f s supply).2.1) {respond : α → Response}
    (good : ∀ a, (respond a).status < 400) :
    Careful (changing f >>= fun a => pure (respond a) : Serving σ Response) := by
  intro m
  have all_or_nothing := safe m.store m.supply
  have changed := on_changing f m
  cases answer : (f m.store m.supply).1 with
  | error e =>
    rw [answer] at changed
    rw [on_bind_of_error changed]
    exact ⟨fun _ h => (nomatch h), fun _ _ => all_or_nothing.nothing e answer⟩
  | ok a =>
    rw [answer] at changed
    rw [on_bind_of_ok changed]
    exact ⟨(careful_respond (good a) _).1, fun _ h => (nomatch h)⟩

/-- What the machine is let do is answered with a success. -/
theorem careful_running (f : Machine σ → α × Machine σ) {respond : α → Response}
    (good : ∀ a, (respond a).status < 400) :
    Careful (running f >>= fun a => pure (respond a) : Serving σ Response) := by
  intro m
  rw [on_bind_of_ok (on_running f m)]
  exact ⟨(careful_respond (good _) _).1, fun _ h => (nomatch h)⟩

end Serving

open Serving

variable {σ α : Type}

/-! ## The requests -/

namespace Codec

variable [Definition α] (c : Codec α)

theorem careful_list : Careful (c.list : Serving σ Response) :=
  harmless_store.careful_bind fun s => careful_listing c.write (s.list α)

theorem careful_get (segment : List Char) : Careful (c.get segment : Serving σ Response) :=
  (harmless_identifier segment).careful_bind fun _ =>
    (harmless_finding _).careful_bind fun _ => careful_showing _ (by decide)

/-- To add a record of any kind: the body is read first, and then the one change is made or refused.
-/
theorem careful_create (request : Request) : Careful (c.create request : Serving σ Response) :=
  (harmless_body _ _ request).careful_bind fun r =>
    careful_changing (fun s supply => s.allOrNothing_create r supply)
      fun _ => show 201 < 400 by decide

/-- To replace a record of any kind: identifier and body are read before the one change is tried. -/
theorem careful_replace (segment : List Char) (request : Request) :
    Careful (c.replace segment request : Serving σ Response) :=
  (harmless_identifier segment).careful_bind fun id =>
    (harmless_body _ _ request).careful_bind fun r =>
      careful_changing (fun s _ => s.allOrNothing_modify id fun _ => r)
        fun _ => show 200 < 400 by decide

/-- To delete a record of any kind is one change, and the response behind it is no error. -/
theorem careful_delete (segment : List Char) : Careful (c.delete segment : Serving σ Response) :=
  (harmless_identifier segment).careful_bind fun id =>
    careful_changing (fun s _ => s.allOrNothing_delete (α := α) id)
      fun _ => show 204 < 400 by decide

/-- Whatever is asked of all records of a kind. -/
theorem careful_all (request : Request) (method : Http.Method) :
    Careful (c.all request method : Serving σ Response) := by
  unfold all
  split
  · exact c.careful_list
  · exact c.careful_create request
  · exact careful_refuse _

/-- Whatever is asked of one record. -/
theorem careful_one (segment : List Char) (request : Request) (method : Http.Method) :
    Careful (c.one segment request method : Serving σ Response) := by
  unfold one
  split
  · exact c.careful_get segment
  · exact c.careful_replace segment request
  · exact c.careful_delete segment
  · exact careful_refuse _

end Codec

theorem careful_listWorkflows (t : Target) : Careful (listWorkflows t : Serving σ Response) :=
  (harmless_query _ t).careful_bind fun _ =>
    harmless_store.careful_bind fun _ => careful_listing _ _

theorem careful_createWorkflow (request : Request) :
    Careful (createWorkflow request : Serving σ Response) :=
  (harmless_body _ _ request).careful_bind fun w =>
    careful_changing (fun s supply => s.allOrNothing_createWorkflow w supply)
      fun _ => show 201 < 400 by decide

/-- Only the fields that the body names are set, all of them in one change. -/
theorem careful_updateWorkflow (segment : List Char) (request : Request) :
    Careful (updateWorkflow segment request : Serving σ Response) :=
  (harmless_identifier segment).careful_bind fun id =>
    (harmless_body _ _ request).careful_bind fun update =>
      careful_changing (fun s supply => s.allOrNothing_updateWorkflow id update supply)
        fun _ => show 200 < 400 by decide

theorem careful_setStatus (segment : List Char) (request : Request) :
    Careful (setStatus segment request : Serving σ Response) :=
  (harmless_identifier segment).careful_bind fun id =>
    (harmless_body _ _ request).careful_bind fun status =>
      careful_changing (fun s supply => s.allOrNothing_setWorkflowStatus id status supply)
        fun _ => show 200 < 400 by decide

theorem careful_listSteps (segment : List Char) :
    Careful (listSteps segment : Serving σ Response) :=
  (harmless_identifier segment).careful_bind fun _ =>
    (harmless_finding _).careful_bind fun _ =>
      harmless_store.careful_bind fun _ => careful_listing _ _

theorem careful_validate (engine : Engine σ) (segment : List Char) :
    Careful (validate engine segment : Serving σ Response) :=
  (harmless_identifier segment).careful_bind fun _ =>
    (harmless_finding _).careful_bind fun _ =>
      harmless_store.careful_bind fun _ => careful_showing _ (by decide)

/-- A workflow that is not run leaves the machine as it is. -/
theorem execute_of_error {engine : Engine σ} {id : String} {data : Json} {m m' : Machine σ}
    {e : EngineError} (h : engine.execute id data m = (.error e, m')) : m' = m := by
  unfold Engine.execute at h
  split at h
  · cases h
    rfl
  · split at h
    · cases h
    · cases h
      rfl

/-- A workflow is looked up before it runs, and once it has run the response is no error. -/
theorem careful_execute (engine : Engine σ) (segment : List Char) (request : Request) :
    Careful (execute engine segment request : Serving σ Response) := by
  refine (harmless_identifier segment).careful_bind fun id =>
    (harmless_body _ _ request).careful_bind fun data m => ?_
  rw [on_bind_of_ok (on_running (engine.execute id data) m)]
  rcases h : engine.execute id data m with ⟨e | e, m'⟩
  · obtain rfl := execute_of_error h
    exact careful_throw _ m'
  · exact ⟨fun r hr => Except.ok.inj hr ▸ (show 200 < 400 by decide), fun _ h => (nomatch h)⟩

/-- An event is read before it is dispatched, and then the response is no error. -/
theorem careful_publish (engine : Engine σ) (request : Request) :
    Careful (publish engine request : Serving σ Response) := by
  refine (harmless_body _ _ request).careful_bind fun (eventType, data) => ?_
  dsimp only
  split
  · exact careful_throw _
  · exact careful_running _ fun _ => show 202 < 400 by decide

theorem careful_listExecutions (t : Target) : Careful (listExecutions t : Serving σ Response) :=
  (harmless_query _ t).careful_bind fun _ =>
    harmless_store.careful_bind fun _ => careful_listing _ _

theorem careful_showExecution (segment : List Char) :
    Careful (showExecution segment : Serving σ Response) := by
  refine (harmless_identifier segment).careful_bind fun id => ?_
  split
  · exact (harmless_finding _).careful_bind fun _ => careful_showing _ (by decide)
  · exact careful_refuse _

theorem careful_exportAll (t : Target) : Careful (exportAll t : Serving σ Response) :=
  (harmless_query _ t).careful_bind fun _ => careful_running _ fun _ => show 200 < 400 by decide

/-- Every route, with every method. -/
theorem careful_serve (engine : Engine σ) (request : Request) (t : Target) (route : Route)
    (method : Http.Method) : Careful (serve engine request t route method) := by
  unfold serve
  split
  · exact careful_listWorkflows t
  · exact careful_createWorkflow request
  · exact Codec.careful_get _ _
  · exact careful_updateWorkflow _ request
  · exact Codec.careful_delete _ _
  · exact careful_setStatus _ request
  · exact careful_listSteps _
  · exact careful_validate engine _
  · exact careful_execute engine _ request
  · exact Codec.careful_all _ request method
  · exact Codec.careful_all _ request method
  · exact Codec.careful_all _ request method
  · exact Codec.careful_one _ _ request method
  · exact Codec.careful_one _ _ request method
  · exact Codec.careful_one _ _ request method
  · exact careful_publish engine request
  · exact careful_listExecutions t
  · exact careful_showExecution _
  · exact harmless_store.careful_bind fun _ => careful_showing _ (by decide)
  · exact careful_exportAll t
  · exact careful_refuse _

/-- Every target, whether or not it is one of a route. -/
theorem careful_serveTarget (engine : Engine σ) (request : Request) (method : Http.Method) :
    Careful (serveTarget engine request method) := by
  unfold serveTarget
  dsimp only
  split
  · exact careful_serve engine request _ _ method
  · exact careful_refuse _

/-- The response that a result is told in. -/
def told : Except Failure Response → Response
  | .ok r => r
  | .error f => f.response

/-- What is told with an error status has changed nothing. -/
theorem Serving.Careful.kept {x : Serving σ Response} (careful : Careful x) (m : Machine σ)
    (failed : 400 ≤ (told (x.on m).1).status) : m.store.Kept (x.on m).2.store := by
  obtain ⟨good, kept⟩ := careful m
  cases result : (x.on m).1 with
  | error e => exact kept e result
  | ok r =>
    rw [result] at failed
    exact absurd (good r result) (Nat.not_lt.2 failed)

/-- A request is answered with what its target is told, or with nothing at all. -/
theorem respond_cases (engine : Engine σ) (request : Request) (m : Machine σ) :
    respond engine request m = (.empty 200, m) ∨
      ∃ method, let x := (serveTarget engine request method).on m
        (respond engine request m).1.status = (told x.1).status ∧
          (respond engine request m).2 = x.2 := by
  unfold respond
  split
  · exact .inl rfl
  · refine .inr ⟨.get, ?_⟩
    rcases h : (serveTarget engine request .get).run.run m with ⟨_ | _, m'⟩ <;>
      simp [on, h, told]
  · refine .inr ⟨request.method, ?_⟩
    rcases h : (serveTarget engine request request.method).run.run m with ⟨_ | _, m'⟩ <;>
      simp [on, h, told]

/-- A request that is answered with an error status has changed nothing. -/
theorem kept_of_respond (engine : Engine σ) (request : Request) (m : Machine σ)
    (failed : 400 ≤ (respond engine request m).1.status) :
    m.store.Kept (respond engine request m).2.store := by
  obtain h | ⟨method, status, after⟩ := respond_cases engine request m
  · rw [h] at failed
    exact absurd failed (show ¬ 400 ≤ 200 by decide)
  · rw [after]
    exact (careful_serveTarget engine request method).kept m (status ▸ failed)

/-- Mutations are all or nothing, whatever writes and renames fail. An error leaves the collections
and the file as they were, and a success leaves the snapshot of the collections in the file. So
after any mutations the file is as it was when the store was opened, with the memory of then, or
holds the snapshot of the memory; and what is answered with an error status, on any route, changes
nothing. -/
theorem unchanged_of_error :
    (∀ (mutation : Mutation) (s : Store) (supply : Supply),
      (∀ e, (mutation.apply s supply).1 = .error e →
        (mutation.apply s supply).2.1.collections = s.collections ∧
          (mutation.apply s supply).2.1.content? = s.content?) ∧
      ((mutation.apply s supply).1 = .ok () → ∀ b, (mutation.apply s supply).2.1.backing = some b →
        b.content = some (mutation.apply s supply).2.1.collections.document.pretty)) ∧
    (∀ (mutations : List Mutation) (b : Backing) (supply : Supply) (s : Store) (supply' : Supply),
      Store.openFile b supply = .ok (s, supply') →
        let after := (Mutation.applyAll mutations s supply').1
        (after.content? = b.content ∧ after.collections = s.collections) ∨
          after.content? = some after.collections.document.pretty) ∧
    (∀ (engine : Engine σ) (request : Request) (m : Machine σ),
      400 ≤ (respond engine request m).1.status →
        (respond engine request m).2.store.collections = m.store.collections ∧
          (respond engine request m).2.store.content? = m.store.content?) := by
  refine ⟨fun mutation s supply => ?_, fun mutations b supply s supply' opened => ?_,
    fun engine request m failed => ?_⟩
  · have whole := mutation.allOrNothing_apply s supply
    exact ⟨fun e h => ⟨(whole.nothing e h).collections, (whole.nothing e h).content⟩, whole.all ()⟩
  · have backing := Store.backing_of_openFile opened
    have content : s.content? = b.content := by simp [Store.content?, backing]
    have backed := Mutation.backed_applyAll mutations s supply'
    obtain kept | saved := Mutation.kept_or_saved_of_applyAll mutations s supply'
    · exact .inl ⟨kept.content.trans content, kept.collections⟩
    · obtain ⟨b', hb'⟩ := Option.isSome_iff_exists.1 (backed.trans (by simp [backing]))
      exact .inr (by rw [Store.content?, hb', Option.bind_some]; exact saved b' hb')
  · have kept := kept_of_respond engine request m failed
    exact ⟨kept.collections, kept.content⟩

/-- A store on a file that was opened when there was none, and that no snapshot will take the place
of. -/
def unwritable : Store := ⟨.empty, some ⟨none, none, fun _ => .renameFailed "denied"⟩⟩

/-- A machine with that store. -/
def stuck : Machine Unit := { Engine.idle with store := unwritable }

/-- A request to add an action, which does not say that its body is JSON. -/
def untyped : Request := ⟨.post, "/api/v1/actions", none, "{}"⟩

theorem unchanged_of_error_untyped :
    ((Mutation.create (⟨"a", "A", "", "log", "", [], .null, default, anonymous⟩ : Action)).apply
      unwritable default).1 = .error (.snapshotFile "denied") ∧
    ((Mutation.create (⟨"a", "A", "", "log", "", [], .null, default, anonymous⟩ : Action)).apply
      unwritable default).2.1.collections = .empty ∧
    Store.openFile ⟨none, none, fun _ => .renameFailed "denied"⟩ default =
      .ok (unwritable, default) ∧
    (respond Engine.bare untyped stuck).1.status = 415 ∧
    (respond Engine.bare untyped stuck).2.store.content? = none := by
  have refused : ((Mutation.create (⟨"a", "A", "", "log", "", [], .null, default, anonymous⟩ :
      Action)).apply unwritable default).1 = .error (.snapshotFile "denied") := rfl
  have unread : (respond Engine.bare untyped stuck).1.status = 415 := by rfl
  have unchanged := unchanged_of_error (σ := Unit)
  exact ⟨refused, (unchanged.1 _ _ _).1 _ refused |>.1, rfl, unread,
    (unchanged.2.2 _ _ _ (unread ▸ by decide)).2⟩

end EventFlow.Api
