import SkillEngine.Proofs.Bounds

/-!
# Stale attributes

An attribute keeps the value that it committed last, and a mark that says whether this may be stale.
The mark hides no change: once a value has been committed, and until one is written past the
modifiers, a read gives the clamped aggregate of what the attribute has by then
(`reads_agree_with_modifiers`). Each operation decides on its own whether to set the mark, some of
them only if a modifier really changed; that is where the argument is, and `Settled` is what it
keeps.

A value that is written past the modifiers is read from a fresh attribute at once. A stale one takes
it, tells the observers of it, and never shows it (`direct_writes_show`): whatever is asked of the
attribute afterwards, it reads as if the write had not been made.
-/

namespace SkillEngine

namespace AttributeRequest

/-- The request commits the computed value: it asks for that, or it writes the base value and no
hook vetoes. -/
def commits (attr : Attribute) : AttributeRequest → Bool
  | .recalculate => true
  | .setBase value => (attr.setBase value).1
  | _ => false

/-- The request writes the current value past the modifiers: no hook vetoes. -/
def bypasses (attr : Attribute) : AttributeRequest → Bool
  | .setCurrent value => (attr.setCurrent value).1
  | _ => false

end AttributeRequest

namespace Attribute

variable {attr : Attribute}

/-- Unless it is stale, the committed value is the computed one. -/
def Settled (attr : Attribute) : Prop := attr.dirty = false → attr.current = attr.computed

/-- A settled attribute reads as its base value and modifiers make it. -/
theorem Settled.currentValue (settled : attr.Settled) : attr.currentValue = attr.computed := by
  unfold Attribute.currentValue
  cases stale : attr.dirty with
  | false => exact settled stale
  | true => rfl

/-- Committing settles an attribute. -/
theorem settled_recalculate (attr : Attribute) : attr.recalculate.1.Settled := fun _ => rfl

/-- Writing the base value settles an attribute, if no hook vetoes. -/
theorem settled_setBase {value : Float32} (written : (attr.setBase value).1 = true) :
    (attr.setBase value).2.1.Settled := by
  unfold setBase at written ⊢
  split at written
  · cases written
  · exact settled_recalculate _

/-- A request that commits settles the attribute. -/
theorem settled_perform {request : AttributeRequest} (commits : request.commits attr = true)
    (observer : EntityId) : (request.perform observer attr).state.Settled := by
  cases request with
  | setBase value => exact settled_setBase commits
  | recalculate => exact settled_recalculate attr
  | _ => cases commits

namespace Settled

/-- Attaching a modifier leaves an attribute stale. -/
theorem attach (attr : Attribute) (active : ActiveModifier Float32) :
    (attr.attach active).Settled := fun fresh => by cases fresh

/-- Modifiers may be edited, if the mark is set unless they stay as they are. -/
theorem edit (settled : attr.Settled) {modifiers : List (ActiveModifier Float32)} {edited : Bool}
    (same : edited = false → modifiers = attr.modifiers) :
    Settled { attr with modifiers, dirty := attr.dirty || edited } := by
  intro fresh
  obtain ⟨clean, unedited⟩ := Bool.or_eq_false_iff.1 fresh
  rw [same unedited]
  exact settled clean

/-- Detaching modifiers: if none is counted, all are kept. -/
theorem detach (settled : attr.Settled) (source : SourceId) : (attr.detach source).2.Settled := by
  refine settled.edit fun none => ?_
  refine List.filter_sublist.eq_of_length_le ?_
  exact Nat.sub_eq_zero_iff_le.1 (bne_eq_false_iff_eq.1 none)

/-- Telling modifiers a stack count: if none has another count, none changes. -/
theorem setStacks (settled : attr.Settled) (source : SourceId) (stackCount : Nat) :
    (attr.setStacks source stackCount).Settled := by
  refine settled.edit fun none => ?_
  refine (List.map_congr_left fun active member => ?_).trans (List.map_id _)
  have same := List.any_eq_false.1 none active member
  split
  · next mine =>
    have count : active.stackCount = stackCount := by simpa [mine] using same
    exact count ▸ rfl
  · rfl

/-- Replacing a magnitude: if none has other bits, none changes. -/
theorem setMagnitude (settled : attr.Settled) (source : SourceId) (slot : Nat)
    (magnitude : Float32) : (attr.setMagnitude source slot magnitude).Settled := by
  refine settled.edit fun none => ?_
  refine (List.map_congr_left fun active member => ?_).trans (List.map_id _)
  have same := List.any_eq_false.1 none active member
  split
  · next mine =>
    have bits : active.magnitude.toBits = magnitude.toBits := by simpa [mine] using same
    exact Single.eq_of_toBits bits ▸ rfl
  · rfl

/-- Writing the base value, or trying to. -/
theorem setBase (settled : attr.Settled) (value : Float32) :
    (attr.setBase value).2.1.Settled := by
  unfold Attribute.setBase
  split
  · exact settled
  · exact settled_recalculate _

/-- Failing to write the current value. -/
theorem setCurrent (settled : attr.Settled) {value : Float32}
    (vetoed : (attr.setCurrent value).1 = false) : (attr.setCurrent value).2.1.Settled := by
  unfold Attribute.setCurrent at vetoed ⊢
  split at vetoed
  · exact settled
  · cases vetoed

/-- Whatever is asked of an attribute, short of writing past the modifiers. -/
theorem perform (settled : attr.Settled) {request : AttributeRequest}
    (heeds : request.bypasses attr = false) (observer : EntityId) :
    (request.perform observer attr).state.Settled := by
  cases request with
  | setBase value => exact settled.setBase value
  | setCurrent value => exact settled.setCurrent heeds
  | recalculate => exact settled_recalculate attr
  | attach active => exact .attach attr active
  | detach source => exact settled.detach source
  | setStacks source stackCount => exact settled.setStacks source stackCount
  | setMagnitude source slot magnitude => exact settled.setMagnitude source slot magnitude
  -- Neither the values nor the modifiers nor the mark are touched.
  | _ => exact settled

end Settled

/-- The requests that some operations make in turn, each with the attribute as it finds it. -/
def course (observer : EntityId) (attr : Attribute) :
    List (Subscribers Hook × AttributeRequest) → List (Attribute × AttributeRequest)
  | [] => []
  | (hooks, request) :: rest =>
    let asked := { attr with hooks }
    (asked, request) :: (request.perform observer asked).state.course observer rest

/-- Operations that do not write past the modifiers keep an attribute settled. -/
theorem Settled.afterEach (settled : attr.Settled) (observer : EntityId)
    {operations : List (Subscribers Hook × AttributeRequest)}
    (heed : ∀ step ∈ attr.course observer operations, step.2.bypasses step.1 = false) :
    (attr.afterEach observer operations).Settled := by
  induction operations generalizing attr with
  | nil => exact settled
  | cons operation rest ih =>
    obtain ⟨hooks, request⟩ := operation
    obtain ⟨first, others⟩ := List.forall_mem_cons.1 heed
    have asked : Settled { attr with hooks } := settled
    exact ih (asked.perform first observer) others

/-- In its course the attribute is committed at some step, and not written past the modifiers at any
later one. -/
def Committed (course : List (Attribute × AttributeRequest)) : Prop :=
  ∃ place attr request, course[place]? = some (attr, request) ∧ request.commits attr = true ∧
    ∀ step ∈ course.drop (place + 1), step.2.bypasses step.1 = false

/-- An attribute that was committed, and not written past the modifiers since, is settled. -/
theorem settled_afterEach {observer : EntityId}
    {operations : List (Subscribers Hook × AttributeRequest)}
    (committed : Committed (attr.course observer operations)) :
    (attr.afterEach observer operations).Settled := by
  obtain ⟨place, found, request, here, commits, heed⟩ := committed
  induction operations generalizing attr place with
  | nil => cases here
  | cons operation rest ih =>
    obtain ⟨hooks, asking⟩ := operation
    cases place with
    | zero =>
      cases here
      exact (settled_perform commits observer).afterEach observer heed
    | succ place => exact ih place here heed

end Attribute

/-- Whatever an attribute was and whatever is done with it: once a value has been committed, and as
long as none is written past the modifiers after the last commit, a read gives the clamped aggregate
of base value and modifiers, bit for bit, whether the attribute is stale or not; so committing
changes nothing that is read. -/
theorem reads_agree_with_modifiers {attr : Attribute} {observer : EntityId}
    {operations : List (Subscribers Hook × AttributeRequest)}
    (committed : Attribute.Committed (attr.course observer operations)) :
    let now := attr.afterEach observer operations
    now.currentValue = now.clamp (aggregate now.base now.modifiers now.mode) ∧
      now.recalculate.1.currentValue = now.currentValue := by
  have settled := Attribute.settled_afterEach committed
  exact ⟨settled.currentValue, settled.currentValue.symm⟩

/-- An attribute of ten points, out of a hundred. -/
def vigor : Attribute :=
  .create ⟨1⟩ (Float32.ofBits 0x41200000) (some 0) (some (Float32.ofBits 0x42c80000)) .default false

/-- A modifier that adds five points. -/
def bracing : ActiveModifier Float32 where
  op := .add
  magnitude := Float32.ofBits 0x40a00000
  source := ⟨1⟩
  slot := 0
  stackCount := 1
  appliedAt := .ofValue (Float.ofBits 0)

/-- A hook that lets nothing be written. -/
def sealed : Subscribers Hook := (Subscribers.empty.subscribe (.ofRule "sealed" .veto none)).2

/-- Seven points are written past the modifiers and recalculated; five are added, a write of three
fails, and the modifier is told the magnitude that it has. -/
def recovery : List (Subscribers Hook × AttributeRequest) :=
  [(.empty, .setCurrent (Float32.ofBits 0x40e00000)), (.empty, .recalculate),
    (.empty, .attach bracing), (sealed, .setCurrent (Float32.ofBits 0x40400000)),
    (.empty, .setMagnitude ⟨1⟩ 0 (Float32.ofBits 0x40a00000))]

/-- The attribute is stale at the end, with ten points committed, and reads as fifteen. -/
theorem vigor_recovers : Attribute.Committed (vigor.course ⟨1⟩ recovery) ∧
    (let now := vigor.afterEach ⟨1⟩ recovery
    (now.currentValue = now.clamp (aggregate now.base now.modifiers now.mode) ∧
      now.recalculate.1.currentValue = now.currentValue) ∧
    now.dirty = true ∧ now.current.toBits = 0x41200000 ∧ now.currentValue.toBits = 0x41700000) := by
  have committed : Attribute.Committed (vigor.course ⟨1⟩ recovery) := by
    refine ⟨1, _, _, rfl, rfl, ?_⟩
    decide +kernel
  exact ⟨committed, reads_agree_with_modifiers committed, by decide +kernel⟩

namespace Attribute

/-- A write of the current value changes nothing but the committed value. -/
theorem exists_setCurrent (attr : Attribute) (value : Float32) :
    ∃ current, (attr.setCurrent value).2.1 = { attr with current } := by
  unfold setCurrent
  split
  · exact ⟨attr.current, rfl⟩
  · exact ⟨_, rfl⟩

/-- One attribute is another but for the committed value, and that does not matter either unless
both are stale. -/
def Alike (one other : Attribute) : Prop :=
  ∃ current, other = { one with current } ∧ (one.dirty = false → current = one.current)

namespace Alike

variable {one other : Attribute}

/-- An attribute is like itself. -/
theorem refl (attr : Attribute) : attr.Alike attr := ⟨attr.current, rfl, fun _ => rfl⟩

/-- Alike attributes read the same. -/
theorem currentValue (alike : one.Alike other) : other.currentValue = one.currentValue := by
  obtain ⟨current, rfl, same⟩ := alike
  unfold Attribute.currentValue
  cases stale : one.dirty with
  | false => exact same stale
  | true => rfl

/-- Whatever value a stale attribute keeps. -/
theorem of_dirty {attr : Attribute} (stale : attr.dirty = true) (one other : Float32) :
    Alike { attr with current := one } { attr with current := other } :=
  ⟨other, rfl, fun fresh => by cases stale.symm.trans fresh⟩

/-- Writing the current value of both: the hooks may see different values and answer differently,
but what is written to a stale attribute does not matter. -/
theorem setCurrent (alike : one.Alike other) (value : Float32) :
    (one.setCurrent value).2.1.Alike (other.setCurrent value).2.1 := by
  obtain ⟨current, rfl, same⟩ := alike
  by_cases stale : one.dirty = true
  · obtain ⟨first, left⟩ := exists_setCurrent one value
    obtain ⟨second, right⟩ := exists_setCurrent { one with current } value
    rw [left, right]
    exact of_dirty stale first second
  · rw [same (Bool.eq_false_iff.2 stale)]
    exact .refl _

/-- Writing the base value of both. -/
theorem setBase (alike : one.Alike other) (value : Float32) :
    (one.setBase value).2.1.Alike (other.setBase value).2.1 := by
  obtain ⟨current, rfl, same⟩ := alike
  unfold Attribute.setBase
  dsimp only
  split
  · exact ⟨current, rfl, same⟩
  · exact .refl _

/-- Asking both the same. -/
theorem perform (alike : one.Alike other) (observer : EntityId) (request : AttributeRequest) :
    (request.perform observer one).state.Alike (request.perform observer other).state := by
  cases request with
  | setBase value => exact alike.setBase value
  | setCurrent value => exact alike.setCurrent value
  | recalculate =>
    obtain ⟨current, rfl, same⟩ := alike
    exact .refl _
  | attach active =>
    obtain ⟨current, rfl, same⟩ := alike
    exact ⟨current, rfl, fun fresh => by cases fresh⟩
  | detach | setStacks | setMagnitude =>
    obtain ⟨current, rfl, same⟩ := alike
    exact ⟨current, rfl, fun fresh => same (Bool.or_eq_false_iff.1 fresh).1⟩
  -- Neither the values nor the mark are touched.
  | _ =>
    obtain ⟨current, rfl, same⟩ := alike
    exact ⟨current, rfl, same⟩

/-- Doing the same with both. -/
theorem afterEach (alike : one.Alike other) (observer : EntityId)
    (operations : List (Subscribers Hook × AttributeRequest)) :
    (one.afterEach observer operations).Alike (other.afterEach observer operations) := by
  induction operations generalizing one other with
  | nil => exact alike
  | cons operation rest ih =>
    obtain ⟨hooks, request⟩ := operation
    have asked : Alike { one with hooks } { other with hooks } := by
      obtain ⟨current, rfl, same⟩ := alike
      exact ⟨current, rfl, same⟩
    exact ih (asked.perform observer request)

end Alike

end Attribute

namespace Attribute

/-- A write of the current value that no hook vetoes stores the clamped value of the hooks. -/
theorem setCurrent_of_written {attr : Attribute} {value : Float32}
    (written : (attr.setCurrent value).1 = true) :
    ∃ proposed asked,
      consult attr.id .current attr.current attr.hooks.listeners value = (some proposed, asked) ∧
      attr.setCurrent value = (true, { attr with current := attr.clamp proposed },
        asked ++ attr.announce .current attr.current (attr.clamp proposed)) := by
  unfold setCurrent at written ⊢
  split at written
  · cases written
  · next proposed asked consulted => exact ⟨proposed, asked, consulted, rfl⟩

end Attribute

/-- A write of the current value that no hook vetoes: every observer is told that the committed
value became the clamped value of the hooks. If the attribute is fresh, this is the change of what
is read, from just before to right afterwards. If it is stale, nothing that is read ever shows the
write: whatever is done with the attribute next, it reads as it would without. -/
theorem direct_writes_show {attr : Attribute} {value : Float32}
    (written : (attr.setCurrent value).1 = true) (observer : EntityId) :
    ∃ proposed asked,
      Attribute.consult attr.id .current attr.current attr.hooks.listeners value =
        (some proposed, asked) ∧
      (attr.setCurrent value).2.2 = asked ++ attr.observers.listeners.map (fun listener =>
        .changed listener ⟨attr.id, .current, attr.current, attr.clamp proposed⟩) ∧
      (attr.dirty = false →
        (attr.setCurrent value).2.1.currentValue = attr.clamp proposed ∧
          attr.currentValue = attr.current) ∧
      (attr.dirty = true →
        ∀ operations, ((attr.setCurrent value).2.1.afterEach observer operations).currentValue =
          (attr.afterEach observer operations).currentValue) := by
  obtain ⟨proposed, asked, consulted, done⟩ := Attribute.setCurrent_of_written written
  rw [done]
  refine ⟨proposed, asked, consulted, rfl, fun fresh => ⟨?_, ?_⟩, fun stale operations => ?_⟩
  · exact if_neg (Bool.eq_false_iff.1 fresh)
  · exact if_neg (Bool.eq_false_iff.1 fresh)
  · have alike := Attribute.Alike.of_dirty stale attr.current (attr.clamp proposed)
    exact (alike.afterEach observer operations).currentValue

/-- Five points are added to the attribute, and somebody observes it. -/
def braced : Attribute := vigor.afterEach ⟨1⟩ [(.empty, .attach bracing), (.empty, .observe)]

/-- A read does not show what is written to a stale attribute: it reads as fifteen points before and
after seven were written, while the observer hears of a change from ten to seven. -/
theorem braced_ignores_write : ∃ change : AttributeChange Float32,
    (braced.setCurrent (Float32.ofBits 0x40e00000)).1 = true ∧
    (braced.setCurrent (Float32.ofBits 0x40e00000)).2.2 = [.changed ⟨1⟩ change] ∧
    change.old.toBits = 0x41200000 ∧ braced.currentValue.toBits = 0x41700000 ∧
    change.new.toBits = 0x40e00000 ∧
    (braced.setCurrent (Float32.ofBits 0x40e00000)).2.1.currentValue.toBits = 0x41700000 :=
  ⟨_, rfl, rfl, by decide +kernel⟩

/-- A hook that lets half of a change through. -/
def halving : Subscribers Hook :=
  (Subscribers.empty.subscribe (.ofRule "halving" .halveDelta none)).2

/-- Seven points are written to a fresh attribute of ten, and half of the change goes through: it
reads as eight and a half. Written to the stale attribute, they are lost. -/
theorem vigor_shows_write :
    let seven := Float32.ofBits 0x40e00000
    let attr := { vigor with hooks := halving }
    ((attr.setCurrent seven).1 = true ∧ attr.dirty = false ∧
      ((attr.setCurrent seven).2.1.currentValue.toBits = 0x41080000 ∧
      ∃ proposed asked,
        Attribute.consult attr.id .current attr.current attr.hooks.listeners seven =
          (some proposed, asked) ∧
        (attr.setCurrent seven).2.1.currentValue = attr.clamp proposed)) ∧
    ((braced.setCurrent seven).1 = true ∧ braced.dirty = true ∧
      ∀ operations, ((braced.setCurrent seven).2.1.afterEach ⟨1⟩ operations).currentValue =
        (braced.afterEach ⟨1⟩ operations).currentValue) := by
  intro seven attr
  have shown : (attr.setCurrent seven).1 = true := rfl
  have lost : (braced.setCurrent seven).1 = true := rfl
  obtain ⟨proposed, asked, consulted, -, fresh, -⟩ := direct_writes_show shown ⟨1⟩
  obtain ⟨-, -, -, -, -, stale⟩ := direct_writes_show lost ⟨1⟩
  exact ⟨⟨shown, rfl, by decide +kernel, proposed, asked, consulted, (fresh rfl).1⟩,
    lost, rfl, stale rfl⟩

end SkillEngine
