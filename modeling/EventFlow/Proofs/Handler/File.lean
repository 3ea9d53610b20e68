import EventFlow.Handler.File
import EventFlow.Proofs.Files.Writing
import EventFlow.Proofs.Template.Deep

/-!
# What file actions touch

A file action writes below the directory of its handler, whatever is put in the place of the
placeholders in its path. Only a path that is `Relative` is followed, and it leads down from the
directory, one name for each segment that moves; the directories that are made lie on the way there
(`stays_below_base`). The handler is `FileAction.handler`, in `EventFlow.Handler.File`.
-/

set_option autoImplicit false

namespace EventFlow

namespace FileAction

open FileTree (namesOf moving dots)
open FilePaths (below staysBelow OnTheWay)

/-- A path that does not start at the root and has no segment that leads up. -/
structure Relative (path : String) : Prop where
  some_text : path ≠ ""
  not_rooted : path.startsWith "/" = false
  never_up : ".." ∉ (Text.parts '/' path.toList).map String.ofList

theorem relative_iff {path : String} : Relative path ↔ staysBelow path = true := by
  rw [FilePaths.staysBelow_iff, ← FilePaths.startsWith_slash_iff, Bool.not_eq_true]
  have same : ".." ∈ (Text.parts '/' path.toList).map String.ofList ↔
      dots ∈ Text.parts '/' path.toList := by
    rw [List.mem_map]
    constructor
    · rintro ⟨segment, among, shown⟩
      rw [← String.toList_inj, String.toList_ofList] at shown
      rwa [shown] at among
    · exact fun among => ⟨dots, among, rfl⟩
  constructor
  · exact fun h => ⟨h.some_text, h.not_rooted, mt same.2 h.never_up⟩
  · exact fun h => ⟨h.1, h.2.1, mt same.1 h.2.2⟩

/-- The path that the settings of an action give, as a text. -/
def Gives (a : Action) (path : String) : Prop := a.config.get? "path" = some (.string path)

theorem gives_interpolateAction_iff {data : Json} {a : Action} {path : String} :
    Gives (Template.interpolateAction data a) path ↔
      ∃ text, Gives a text ∧ path = Template.interpolate text data := by
  unfold Gives
  rw [Template.interpolateAction, Template.get?_interpolateValue, Option.map_eq_some_iff]
  constructor
  · rintro ⟨v, found, shown⟩
    obtain ⟨text, rfl, same⟩ := Template.interpolateValue_eq_string_iff.1 shown
    exact ⟨text, found, same⟩
  · rintro ⟨text, found, rfl⟩
    exact ⟨_, found, rfl⟩

/-- An action is refused unless it gives a relative path. -/
theorem order_cases (base : String) (a : Action) :
    (∃ path, Gives a path ∧ Relative path ∧
        order base a = .ok ⟨path, below base path, a.template ++ "\n"⟩) ∨
      (∃ reason, order base a = .error (.invalidInput reason)) ∧
        ∀ path, Gives a path → ¬ Relative path := by
  unfold order Gives
  split
  · next nothing =>
    refine .inr ⟨⟨_, rfl⟩, fun path found => ?_⟩
    rw [found] at nothing
    cases nothing
  · next path found =>
    obtain ⟨v, member, text⟩ := Option.bind_eq_some_iff.1 found
    rw [Json.asString?_eq_some_iff.1 text] at member
    split
    · next stays => exact .inl ⟨path, member, relative_iff.2 stays, rfl⟩
    · next leaves =>
      refine .inr ⟨⟨_, rfl⟩, fun other given relative => leaves ?_⟩
      cases member.symm.trans given
      exact relative_iff.1 relative

/-- What is carried out of an order: the directories on the way are made as far as they can be, and
then the line is written where the path leads to, if it can be written there. -/
theorem carryOut_cases (base line : String) {path : String} (h : staysBelow path = true)
    (t : FileTree) :
    let names := namesOf base ++ moving (Text.parts '/' path.toList)
    ∃ new, (∀ d ∈ new, OnTheWay base path d) ∧
      let made := { t with directories := t.directories ++ new }
      (¬ t.Writable (below base path) ∧
          ∃ reason, carryOut ⟨path, below base path, line⟩ t = (.error (.failed reason), made)) ∨
        t.Writable (below base path) ∧ ∃ output, carryOut ⟨path, below base path, line⟩ t =
          (.ok output, made.setContent names ((t.content? names).getD "" ++ line)) := by
  obtain ⟨new, made, among⟩ := t.makeDirectories_parent (below base path)
  have lies : ∀ d ∈ new, OnTheWay base path d := by
    intro d hd
    obtain ⟨first, rest, split, ahead, rfl⟩ := among d hd
    rw [FilePaths.origin_below h]
    exact FilePaths.onTheWay_of_parts h split ahead
  have writable := t.written_iff (below base path) line
  refine ⟨new, lies, ?_⟩
  unfold carryOut
  dsimp only
  split
  · next e t' refused =>
    rw [refused] at made writable
    exact .inl ⟨fun w => absurd (writable.2 w).1 (Option.some_ne_none e), _, by rw [← made]⟩
  · next t' done =>
    rw [done] at made writable
    cases made
    split
    · next e appended =>
      refine .inl ⟨fun w => ?_, _, rfl⟩
      obtain ⟨-, t', written⟩ := writable.2 w
      cases appended.symm.trans written
    · next written appended =>
      have w := writable.1 ⟨rfl, written, appended⟩
      rw [FileTree.append_eq_ok appended, FilePaths.namesOf_below h]
      exact .inr ⟨w, _, rfl⟩

theorem handler_of_refused {base : String} {call : Invocation} {e : HandlerFailure}
    (refused : order base call.action = .error e) (supply : Supply) (world : World) :
    handler base call supply world = .atOnce world supply (.error e) := by
  rw [handler, refused]

theorem handler_of_ordered {base : String} {call : Invocation} {o : Order} {world : World}
    {reply : Except HandlerFailure Json} {files : FileTree}
    (ordered : order base call.action = .ok o) (done : carryOut o world.files = (reply, files))
    (supply : Supply) :
    handler base call supply world = .atOnce { world with files } supply reply := by
  rw [handler, ordered]
  dsimp only
  rw [done]

/-- A file action that gives a relative path writes its line where the path leads to, or fails. -/
theorem handler_of_relative (base : String) (call : Invocation) {path : String}
    (given : Gives call.action path) (relative : Relative path) (supply : Supply) (world : World) :
    let done := handler base call supply world
    let names := namesOf base ++ moving (Text.parts '/' path.toList)
    ∃ new, (∀ d ∈ new, OnTheWay base path d) ∧
      let made := { world.files with directories := world.files.directories ++ new }
      (¬ world.files.Writable (below base path) ∧
          (∃ reason, done.reply = .error (.failed reason)) ∧
          done.world = { world with files := made }) ∨
        world.files.Writable (below base path) ∧ (∃ output, done.reply = .ok output) ∧
          done.world = { world with
            files := made.setContent names
              ((world.files.content? names).getD "" ++ (call.action.template ++ "\n")) } := by
  intro done names
  rcases order_cases base call.action with ⟨other, gives, -, ordered⟩ | ⟨-, never⟩
  · cases given.symm.trans gives
    obtain ⟨new, lies, carried⟩ :=
      carryOut_cases base (call.action.template ++ "\n") (relative_iff.1 relative) world.files
    have ends {reply : Except HandlerFailure Json} {files : FileTree}
        (carried : carryOut _ world.files = (reply, files)) :
        done = .atOnce { world with files } supply reply :=
      handler_of_ordered ordered carried supply
    refine ⟨new, lies, ?_⟩
    rcases carried with ⟨stuck, reason, failed⟩ | ⟨writable, output, written⟩
    · rw [ends failed]
      exact .inl ⟨stuck, ⟨reason, rfl⟩, rfl⟩
    · rw [ends written]
      exact .inr ⟨writable, ⟨output, rfl⟩, rfl⟩
  · exact absurd relative (never path given)

/-- A file action that gives no relative path is refused as unusable, and touches nothing. One that
gives a relative path changes nothing but files: it appends its line where the path leads to below
the base, or fails if nothing can be written there, and every directory that it makes lies on the
way there. -/
theorem stays_below_base (base : String) (a : Action) (data : Json) (supply : Supply)
    (world : World) :
    let b := Template.interpolateAction data a
    let done := handler base ⟨b, data⟩ supply world
    (∀ path, Gives b path ↔ ∃ text, Gives a text ∧ path = Template.interpolate text data) ∧
      ((∃ path, Gives b path ∧ Relative path) ↔
        ∀ reason, done.reply ≠ .error (.invalidInput reason)) ∧
      ((∃ reason, done.reply = .error (.invalidInput reason)) → done.world = world) ∧
      ∀ path, Gives b path → Relative path →
        let names := namesOf base ++ moving (Text.parts '/' path.toList)
        ∃ new, (∀ d ∈ new, OnTheWay base path d) ∧
          let made := { world.files with directories := world.files.directories ++ new }
          (¬ world.files.Writable (below base path) ∧
              (∃ reason, done.reply = .error (.failed reason)) ∧
              done.world = { world with files := made }) ∨
            world.files.Writable (below base path) ∧ (∃ output, done.reply = .ok output) ∧
              done.world = { world with
                files := made.setContent names
                  ((world.files.content? names).getD "" ++ (b.template ++ "\n")) } := by
  intro b done
  refine ⟨fun path => gives_interpolateAction_iff, ?_⟩
  rcases order_cases base b with ⟨path, given, relative, -⟩ | ⟨⟨reason, refused⟩, never⟩
  · have goes := handler_of_relative base ⟨b, data⟩ given relative supply world
    have accepted : ∀ reason, done.reply ≠ .error (.invalidInput reason) := by
      intro reason refused
      obtain ⟨_, _, ⟨_, ⟨_, failed⟩, _⟩ | ⟨_, ⟨_, replied⟩, _⟩⟩ := goes
      · cases refused.symm.trans failed
      · cases refused.symm.trans replied
    refine ⟨iff_of_true ⟨path, given, relative⟩ accepted,
      fun ⟨reason, refused⟩ => absurd refused (accepted reason), fun other gives _ => ?_⟩
    cases given.symm.trans gives
    exact goes
  · have ends : done = .atOnce world supply (.error (.invalidInput reason)) :=
      handler_of_refused refused supply world
    rw [ends]
    refine ⟨iff_of_false ?_ fun accepted => accepted reason rfl, fun _ => rfl, ?_⟩
    · rintro ⟨path, given, relative⟩
      exact never path given relative
    · intro path given relative
      exact absurd relative (never path given)

/-- An action that writes a line to a file of the day. -/
def dayLog : Action :=
  ⟨"log", "Log", "", "file", "ding", [], .ofMembers [("path", .string "{{ day }}/bells.log")],
    default, anonymous⟩

/-- Data that say what day it is. -/
def dated (day : String) : Json := .ofMembers [("day", .string day)]

theorem gives_dayLog (day : String) : Gives (Template.interpolateAction (dated day) dayLog)
    (Template.interpolate "{{ day }}/bells.log" (dated day)) :=
  gives_interpolateAction_iff.2 ⟨_, rfl, rfl⟩

/-- The line of Monday is written in a directory of its own, which is made, and the line of a day
that would lead out of the base is written nowhere. -/
theorem stays_below_base_dayLog :
    let done (day : String) := handler "out"
      ⟨Template.interpolateAction (dated day) dayLog, dated day⟩ default (.start .empty)
    let file := ["out".toList, "monday".toList, "bells.log".toList]
    FileTree.empty.Writable (below "out" "monday/bells.log") ∧
      (∃ output, (done "monday").reply = .ok output) ∧
      (∃ made, (done "monday").world = .start ⟨made, [(file, "ding\n")]⟩) ∧
      (∃ reason, (done "../..").reply = .error (.invalidInput reason)) ∧
      (done "../..").world = .start .empty := by
  intro done file
  have named :
      Template.interpolate "{{ day }}/bells.log" (dated "monday") = "monday/bells.log" := by
    decide +kernel
  have upward : Template.interpolate "{{ day }}/bells.log" (dated "../..") = "../../bells.log" := by
    decide +kernel
  have relative : Relative "monday/bells.log" := relative_iff.2 (by decide +kernel)
  have outside : ¬ Relative "../../bells.log" := mt relative_iff.1 (by decide +kernel)
  have place : below "out" "monday/bells.log" = "out/monday/bells.log" := by decide +kernel
  have writable : FileTree.empty.Writable (below "out" "monday/bells.log") := by
    rw [place]
    have short : ∀ s ∈ Text.parts '/' "out/monday/bells.log".toList, FileTree.Short s := by
      unfold FileTree.Short
      decide
    exact ⟨⟨by decide, by decide, by decide⟩, short, ⟨["out".toList, "monday".toList],
      "bells.log".toList, by decide, by decide, by decide, fun _ _ => .inr rfl,
      by decide +kernel⟩, by decide +kernel⟩
  obtain ⟨-, -, -, below_base⟩ :=
    stays_below_base "out" dayLog (dated "monday") default (.start .empty)
  obtain ⟨-, accepted, untouched, -⟩ :=
    stays_below_base "out" dayLog (dated "../..") default (.start .empty)
  have refused : ∃ reason, (done "../..").reply = .error (.invalidInput reason) := by
    by_contra never
    obtain ⟨path, given, inside⟩ := accepted.2 fun reason refused => never ⟨reason, refused⟩
    cases (gives_dayLog "../..").symm.trans given
    exact outside (upward ▸ inside)
  obtain ⟨made, -, ends⟩ := below_base _ (named ▸ gives_dayLog "monday") relative
  rcases ends with ⟨stuck, -, -⟩ | ⟨-, replied, written⟩
  · exact absurd writable stuck
  · have spot : namesOf "out" ++ moving (Text.parts '/' "monday/bells.log".toList) = file := by
      decide +kernel
    rw [spot] at written
    exact ⟨writable, replied, ⟨_, written⟩, refused, untouched refused⟩

end FileAction

end EventFlow
