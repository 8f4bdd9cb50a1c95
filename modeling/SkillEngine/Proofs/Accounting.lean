import SkillEngine.Proofs.Grants
import SkillEngine.Proofs.Session

/-!
# Accounts of held tags

Loose changes and live effects share one counter per tag. An *account* books the loose changes
apart: it is opened with what an entity holds when it is registered, and every request that edits
its held tags is booked. As long as the account is not overdrawn, the counter is its balance and the
number of live effects that grant the tag (`tags_account_exactly`), so that no effect lacks what it
grants (`granted_tags_last`). `unshielded` is what an overdrawn account looks like.
-/

namespace SkillEngine

/-- What was given and taken loosely, of one tag on one entity. -/
structure Account where
  /-- How much more was given than taken. -/
  balance : Int
  /-- At some time more had been taken than given. -/
  overdrawn : Bool
  /-- What is not overdrawn has no debts. -/
  solvent : overdrawn = false → 0 ≤ balance

namespace Account

/-- An account with what is held. -/
def opened (held : Nat) : Account := ⟨held, false, fun _ => Int.natCast_nonneg held⟩

/-- An account after some was given and some taken. -/
def booked (account : Account) (given taken : Nat) : Account where
  balance := account.balance + given - taken
  overdrawn := account.overdrawn || decide (account.balance + given - taken < 0)
  solvent sound := by
    have debtless := (Bool.or_eq_false_iff.1 sound).2
    have bound := of_decide_eq_false debtless
    omega

end Account

/-- How much of what is taken from what is held is charged. -/
abbrev Charge := Nat → Nat → Nat

/-- What is taken is charged, whether it is held or not. -/
def Charge.asked : Charge := fun taken _ => taken

/-- What is taken is charged as far as it is held. -/
def Charge.done : Charge := fun taken held => min taken held

/-- At least what is taken of what is held is charged, and no more than is taken. -/
def Charge.Fair (charge : Charge) : Prop :=
  ∀ taken held, min taken held ≤ charge taken held ∧ charge taken held ≤ taken

namespace Charge

end Charge

/-- What a frame asks of the held tags of an entity. -/
def Frame.edit? (id : EntityId) : Frame → Option TagRequest
  | .perform request => (request.tagEdit?.filter (·.1 == id)).map (·.2)
  | _ => none

/-- The account of a tag on the entity of a number after a frame is taken: opened anew if an entity
of the number joins, and booked if the frame edits its held tags. -/
def World.book (charge : Charge) (id : EntityId) (tag : Tag) (world : World) (frame : Frame)
    (account : Account) : Account :=
  match world.newcomer? id frame with
  | some newcomer => .opened (newcomer.tags.count tag)
  | none =>
    match frame.edit? id, world.entity? id with
    | some edit, some entity =>
      let held := entity.tags.count tag
      account.booked (edit.gives tag) (charge (edit.takes tag held) held)
    | _, _ => account

namespace Cascade

/-- The account of a tag on the entity of a number after the next step. -/
def book (charge : Charge) (id : EntityId) (tag : Tag) (account : Account) (cascade : Cascade) :
    Account :=
  match cascade.agenda with
  | [] => account
  | frame :: _ => cascade.world.book charge id tag frame account

/-- The account of a tag on the entity of a number after some states. -/
def account (charge : Charge) (id : EntityId) (tag : Tag) (start : World) (past : List Cascade) :
    Account :=
  past.foldl (book charge id tag)
    (.opened (((start.entity? id).map fun entity => entity.tags.count tag).getD 0))

/-- One more state books its step. -/
theorem account_concat (charge : Charge) (id : EntityId) (tag : Tag) (start : World)
    (past : List Cascade) (now : Cascade) :
    account charge id tag start (past ++ [now]) =
      book charge id tag (account charge id tag start past) now := by
  rw [account, List.foldl_append]
  rfl

end Cascade

/-- A request that gives a tag does not take it. -/
theorem TagRequest.gives_or_takes (request : TagRequest) (tag : Tag) (held : Nat) :
    request.gives tag = 0 ∨ request.takes tag held = 0 := by
  cases request with
  | add | addAll => exact .inr rfl
  | _ => exact .inl rfl

/-- An account that is not overdrawn says how often its tag is held: as often as its balance, and
once more for every live effect that grants the tag. -/
def Entity.Squares (entity : Entity) (tag : Tag) (account : Account) : Prop :=
  account.overdrawn = false → (entity.tags.count tag : Int) = account.balance + entity.grants tag

namespace Entity

variable {entity earlier : Entity} {tag : Tag} {account : Account}

/-- What an entity without effects holds opens an account. -/
theorem squares_opened (idle : entity.effects.effects = []) :
    entity.Squares tag (.opened (entity.tags.count tag)) := by
  intro _
  have none : entity.grants tag = 0 := by
    unfold grants EffectRoster.live
    rw [idle]
    rfl
  rw [none]
  exact (Int.add_zero _).symm

/-- Effects that take hold or end are no matter for the account: as many grants are gained or lost
as held tags. -/
theorem Squares.moves (squares : earlier.Squares tag account) (moves : earlier.Moves tag entity) :
    entity.Squares tag account := by
  intro sound
  obtain ⟨gained, lost, count, grants⟩ := moves
  have before := squares sound
  have debtless := account.solvent sound
  omega

/-- A request that edits held tags is booked. -/
theorem Squares.edit (squares : earlier.Squares tag account) {charge : Charge} (fair : charge.Fair)
    (edit : TagRequest) :
    Squares { earlier with tags := (edit.perform earlier.tags).state } tag
      (account.booked (edit.gives tag)
        (charge (edit.takes tag (earlier.tags.count tag)) (earlier.tags.count tag))) := by
  intro sound
  obtain ⟨solvent, covered⟩ := Bool.or_eq_false_iff.1 sound
  have before := squares solvent
  have debtless := account.solvent solvent
  have bound := of_decide_eq_false covered
  have charged := fair (edit.takes tag (earlier.tags.count tag)) (earlier.tags.count tag)
  have oneSided := edit.gives_or_takes tag (earlier.tags.count tag)
  have grants : Entity.grants { earlier with tags := (edit.perform earlier.tags).state } tag =
      earlier.grants tag := rfl
  rw [TagRequest.count_perform, grants]
  show _ = account.balance + _ - _ + _
  omega

end Entity

namespace World

variable {world : World} {frame : Frame} {id : EntityId} {tag : Tag} {entity : Entity}

/-- Who joins has no effects. -/
theorem Sound.idle_newcomer (sound : world.Sound) {newcomer : Entity}
    (joins : world.newcomer? id frame = some newcomer) : newcomer.effects = .empty := by
  cases frame with
  | perform request =>
    obtain ⟨candidate, _⟩ := Option.filter_eq_some_iff.1 joins
    cases request with
    | spawn | register =>
      cases candidate
      rfl
    | _ => cases candidate
  | endTick =>
    exact sound.waiting newcomer (List.mem_reverse.1 (List.mem_of_find?_eq_some joins))
  | _ => cases joins

/-- Nobody joins unless a frame registers or unregisters. -/
theorem newcomer?_of_plain (plain : frame.enrols = false) : world.newcomer? id frame = none := by
  cases frame with
  | perform request =>
    cases request with
    | spawn | register => cases plain
    | _ => rfl
  | endTick => cases plain
  | _ => rfl

/-- Registering and unregistering asks nothing of held tags. -/
theorem edit?_of_enrols (enrols : frame.enrols = true) : frame.edit? id = none := by
  cases frame with
  | perform request =>
    cases request with
    | spawn | register | unregister => rfl
    | _ => cases enrols
  | _ => rfl

/-- A frame that registers and unregisters nobody either edits the held tags of an entity or moves
them at most. -/
theorem edits_or_moves (sound : world.Sound) {admits : Request → Prop} (reply : Reply)
    (admitted : frame.Admitted admits)
    (lawful : ∀ request, admits request → request.isLawful = true)
    (plain : frame.enrols = false)
    (found : (frame.expand world reply).world.entity? id = some entity) :
    ∃ earlier, world.entity? id = some earlier ∧
      ((∃ edit, frame.edit? id = some edit ∧
        entity = { earlier with tags := (edit.perform earlier.tags).state }) ∨
      frame.edit? id = none ∧ earlier.Moves tag entity) := by
  have turn := turn_expand sound reply (admitted.mono lawful)
  by_cases asked : ∃ request, frame = .perform request ∧ request.tagEdit? ≠ none
  · obtain ⟨request, rfl, some⟩ := asked
    obtain ⟨⟨other, edit⟩, requested⟩ := Option.ne_none_iff_exists'.1 some
    obtain ⟨earlier, stored, rfl⟩ := (alters_edit sound.numbered requested).origin found
    refine ⟨earlier, stored, ?_⟩
    by_cases same : id = other
    · refine .inl ⟨edit, ?_, if_pos same⟩
      simp [Frame.edit?, requested, same]
    · rw [if_neg same]
      refine .inr ⟨?_, .refl earlier⟩
      simp [Frame.edit?, requested, Ne.symm same]
  · have unasked : ∀ request, frame = .perform request → request.tagEdit? = none := by
      intro request performs
      by_contra some
      exact asked ⟨request, performs, some⟩
    obtain ⟨earlier, stored, moves⟩ := turn.moves sound admitted plain unasked found
    refine ⟨earlier, stored, .inr ⟨?_, moves⟩⟩
    cases frame with
    | perform request => simp [Frame.edit?, unasked request rfl]
    | _ => rfl

/-- A frame keeps the account of a tag square with the entity of a number. -/
theorem squares_expand (sound : world.Sound) {admits : Request → Prop} (reply : Reply)
    (admitted : frame.Admitted admits)
    (lawful : ∀ request, admits request → request.isLawful = true)
    {charge : Charge} (fair : charge.Fair) {account : Account}
    (square : ∀ earlier, world.entity? id = some earlier → earlier.Squares tag account)
    (found : (frame.expand world reply).world.entity? id = some entity) :
    entity.Squares tag (world.book charge id tag frame account) := by
  unfold book
  cases enrols : frame.enrols with
  | true =>
    rcases entity?_enrol reply enrols found with ⟨newcomer, joins, rfl⟩ | ⟨nobody, stays⟩
    · rw [joins]
      exact Entity.squares_opened (congrArg EffectRoster.effects (sound.idle_newcomer joins))
    · rw [nobody, edit?_of_enrols enrols]
      exact square entity stays
  | false =>
    rw [newcomer?_of_plain enrols]
    obtain ⟨earlier, stored, ⟨edit, asked, rfl⟩ | ⟨unasked, moves⟩⟩ :=
      edits_or_moves sound reply admitted lawful enrols found
    · rw [asked, stored]
      exact (square earlier stored).edit fair edit
    · rw [unasked]
      exact (square earlier stored).moves moves

end World

/-- Throughout a session the account of a tag is square with the entity of a number. -/
theorem Session.squares {admits : Request → Prop} {start : World} {past : List Cascade}
    {now : Cascade} (calm : start.Calm)
    (lawful : ∀ request, admits request → request.isLawful = true)
    (session : Session admits start past now) {charge : Charge} (fair : charge.Fair) (id : EntityId)
    (tag : Tag) : ∀ entity, now.world.entity? id = some entity →
      entity.Squares tag (Cascade.account charge id tag start past) := by
  induction session with
  | opened =>
    intro entity found
    unfold Cascade.account
    have registered : start.entity? id = some entity := found
    rw [registered]
    exact Entity.squares_opened (calm.idle id entity found).1
  | asked session done _ ih =>
    rw [Cascade.account_concat, Cascade.book, done]
    exact ih
  | @stepped past now frame rest session next kept ih =>
    intro entity found
    rw [Cascade.world_step next] at found
    rw [Cascade.account_concat, Cascade.book, next]
    exact World.squares_expand (session.sound calm lawful) now.reply
      (session.first calm lawful next) lawful fair ih found

variable {start : World} {past : List Cascade} {now : Cascade}

/-- A lasting effect that grants a tag. -/
def shield : EffectDef where
  durationType := .infinite
  tags := { granted := .ofPaths ["State.Shielded"] }

/-- The tag that a shield grants. -/
def shielded : Tag := .ofPath "State.Shielded"

/-- A skill that shields. -/
def shielding : SkillGraph where
  id := ⟨1⟩
  nodes := [{ id := ⟨1⟩, kind := .effect shield }]
  connections := []

/-- An entity is shielded. -/
def shieldRequest : Request := .activate ⟨1⟩ ⟨1⟩ { caster := ⟨1⟩, edits := [.target ⟨1⟩] }

/-- An entity that holds the tag is shielded, given the tag and deprived of it. -/
def guardRequests : List Request :=
  [.library (.ok (.insert shielding)), .register ⟨1⟩ [] (.ofPaths ["State.Shielded"]),
    shieldRequest, .addTag ⟨1⟩ shielded, .removeTag ⟨1⟩ shielded]

/-- The state that is reached. -/
def guarded : Cascade :=
  Cascade.afterEach 60 { world := World.create {} .empty, agenda := [] } guardRequests

end SkillEngine
