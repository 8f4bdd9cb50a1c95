import SkillEngine.World.Frame

/-!
# The life of effects

Applying an effect passes its gates, then writes it at once, stacks it onto a live instance, or lets
a new instance take hold. Ticking advances every effect that was live when the tick reached its
entity, fires its pulses and expires it when its time is up. Removing an effect fires its last ports
and then re-checks the ongoing requirements on its target.
-/

namespace SkillEngine.World

/-- Stacks an application onto an instance. At the limit the duration alone restarts, and the
overflow port fires if the policy says so. -/
def stackOnto (world : World) (handle : EffectHandle) (context : Context) : Progress :=
  let done : Frame := .answer (.handle handle)
  match world.effect? handle with
  | none => { world, frames := [done] }
  | some effect =>
    match effect.definition.stacking with
    | none => { world, frames := [done] }
    | some policy =>
      let stacked := effect.restack policy
      let tracked := (world.modifyEffect handle fun _ => stacked).refreshTracked handle
      let overflows := effect.atLimit policy && policy.overflow == .allowOverflowEffect
      let firing := effect.fires handle .overflow { context with owner := some handle }
      .told (tracked.spreadStacks handle stacked)
        (if overflows then [.fire firing, done] else [done])

/-- An instant application: cleanse, then write. Nothing of it lasts. -/
def instantly (application : Application) (target : EntityId) : List Frame :=
  [.cleanse target application.definition.tags.removeEffectsWithTags, .write application target,
    .answer .nothing]

/-- A lasting application that stacks onto nothing: cleanse, then take hold. -/
def lastingly (application : Application) (target : EntityId) (duration : Float32) : List Frame :=
  [.cleanse target application.definition.tags.removeEffectsWithTags,
    .attach application target duration]

/-- Applies an effect to a target. A timed effect without time is written at once. -/
def applyTo (world : World) (application : Application) (target : EntityId) : Progress :=
  let definition := application.definition
  match world.entity? target with
  | none => .answered world .nothing
  | some entity =>
    if !admits entity definition then .answered world .nothing
    else
      match definition.durationType with
      | .instant => { world, frames := instantly application target }
      | lasting =>
        match entity.effects.findStackable? application.skill application.node definition
            application.context.caster with
        | some id => world.stackOnto ⟨target, id⟩ application.context
        | none =>
          match lasting with
          | .duration =>
            let seconds := world.resolve definition.duration (.of application.context target 1)
            if seconds ≤ 0 then { world, frames := instantly application target }
            else { world, frames := lastingly application target seconds }
          | _ => { world, frames := lastingly application target 0 }

/-- Applies an effect to targets in turn, collecting what lasts. -/
def applyEach (world : World) (application : Application) (targets : List EntityId)
    (handles : List EffectHandle) : Progress :=
  match targets with
  | [] => .answered world (.list .handle handles)
  | target :: rest =>
    { world, frames := [.apply application target, .applied application rest handles] }

/-- Takes down what an application gave. -/
def applied (world : World) (reply : Reply) (application : Application) (targets : List EntityId)
    (handles : List EffectHandle) : Progress :=
  match reply with
  | .handle handle => { world, frames := [.applyEach application targets (handles ++ [handle])] }
  | _ => { world, frames := [.applyEach application targets handles] }

/-- Writes an instant effect; its ports see what it wrote into the context. -/
def write (world : World) (application : Application) (target : EntityId) : Progress :=
  let (context, after) := world.writeInstant application target
  let firing := fun (port : EffectPort) =>
    Frame.fire ⟨application.skill, application.node, port.name, context, none⟩
  .told after [firing .initial, firing .complete]

/-- Lets a new instance take hold, fires its first port and possibly a pulse, and re-checks the
ongoing requirements on its target. -/
def attach (world : World) (application : Application) (target : EntityId) (duration : Float32) :
    Progress :=
  let effect := world.newEffect application target duration
  let numbered := { world with nextEffect := world.nextEffect + 1 }
  let definition := application.definition
  let atOnce := definition.isPeriodic && definition.executePeriodicOnApplication
  .told (numbered.takeHold effect)
    [.fire (effect.fires effect.handle .initial effect.context),
      .pulses effect.handle (if atOnce then 1 else 0), .enforce target,
      .answer (.handle effect.handle)]

/-- Fires some pulses of an effect, each only while it is live. -/
def pulses (world : World) (handle : EffectHandle) : Nat → Progress
  | 0 => { world }
  | count + 1 =>
    match world.effect? handle with
    | none => { world }
    | some effect =>
      if effect.isLive then
        { world, frames :=
            [.fire (effect.fires handle .periodic effect.context), .pulses handle count] }
      else { world }

/-- Ends a live effect, which fires its last ports with the context it was made with. -/
def finish (world : World) (handle : EffectHandle) (state : EffectState) (fires : Bool) :
    Progress :=
  match world.effect? handle with
  | none => .answered world (.flag false)
  | some effect =>
    if effect.isLive then
      let ports := if fires then
          [.fire (effect.fires handle .removed effect.context),
            .fire (effect.fires handle .complete effect.context)]
        else []
      .told (world.release handle effect state)
        (ports ++ [.enforce handle.target, .answer (.flag true)])
    else .answered world (.flag false)

/-- Treats an effect as run out, as its policy says. -/
def expire (world : World) (handle : EffectHandle) : Progress :=
  match world.effect? handle with
  | none => { world }
  | some effect =>
    let ended : List Frame := [.finish handle .expired true]
    match (effect.definition.stacking.map (·.expiration)).getD .clearEntireStack with
    | .clearEntireStack => { world, frames := ended }
    | .removeSingleStackAndRefreshDuration =>
      let fewer := { effect with stackCount := effect.stackCount - 1 }
      if fewer.stackCount = 0 then
        { world := world.modifyEffect handle fun _ => fewer, frames := ended }
      else
        .told ((world.modifyEffect handle fun _ => fewer.restartDuration).spreadStacks handle fewer)
    | .refreshDuration =>
      if effect.stackCount = 0 then { world, frames := ended }
      else { world := world.modifyEffect handle (·.restartDuration) }

/-- Expires an effect that is live and whose duration still has run out. -/
def expireDue (world : World) (handle : EffectHandle) : Progress :=
  if (world.effect? handle).any fun effect => effect.isLive && effect.durationElapsed then
    { world, frames := [.expire handle] }
  else { world }

/-- Removes the effects on a target with matching asset tags. -/
def cleanse (world : World) (target : EntityId) (tags : TagSet) : Progress :=
  match world.entity? target with
  | none => .answered world (.count 0)
  | some entity => { world, frames := [.removeEach target (entity.effects.matching tags) 0] }

/-- Removes some effects in turn, counting those that are still live. -/
def removeEach (world : World) (target : EntityId) (ids : List EffectId) (count : Nat) :
    Progress :=
  match ids with
  | [] => .answered world (.count count)
  | id :: rest =>
    { world, frames :=
        [.finish ⟨target, id⟩ .removed true,
          .removeEach target rest (if world.isLive ⟨target, id⟩ then count + 1 else count)] }

/-- Removes the effects on a target whose ongoing requirement does not hold now. -/
def enforce (world : World) (target : EntityId) : Progress :=
  match world.entity? target with
  | none => { world }
  | some entity =>
    { world, frames := (entity.effects.violating entity.tags.hasAll).map
        fun id => .finish ⟨target, id⟩ .removed true }

/-- Re-checks every entity whose tags changed, and goes on until none waits. -/
def drain (world : World) : Progress :=
  match world.changedEntities with
  | [] => { world }
  | changed =>
    { world := { world with tagChanges := [] }
      frames := (changed.map fun id => .enforce id) ++ [.drain] }

/-- Lets time pass for every effect that is live on an entity now. -/
def tickEntity (world : World) (id : EntityId) (seconds : Float32) : Progress :=
  match world.entity? id with
  | none => { world }
  | some entity =>
    let (ids, effects) := entity.effects.beginTick
    { world := world.modify id fun entity => { entity with effects }
      frames := (ids.map fun effect => .tickEffect ⟨id, effect⟩ seconds) ++ [.endEntityTick id] }

/-- Lets time pass for an effect: its timers advance, its tracked magnitudes are resolved, and what
came due follows. Its ports start a fresh walk. -/
def tickEffect (world : World) (handle : EffectHandle) (seconds : Float32) : Progress :=
  match world.effect? handle with
  | none => { world }
  | some effect =>
    let fresh := { effect with context := { effect.context with depth := 0 } }
    let (elapse, advanced) := fresh.advance seconds
    let ticked := world.modifyEffect handle fun _ => advanced
    { world := if effect.definition.tracks then ticked.refreshTracked handle else ticked
      frames := .pulses handle elapse.pulses ::
        (if elapse.expired then [.expireDue handle] else []) }

/-- Ends the tick of an entity: what was over is dropped, and the values are committed. -/
def endEntityTick (world : World) (id : EntityId) : Progress :=
  .told ((world.modify id fun entity =>
    { entity with effects := entity.effects.endTick }).commit id)

/-- Lets time pass for every entity, unless no time passes. -/
def beginTick (world : World) (seconds : Float32) : Progress :=
  let scaled := seconds * world.timeScale
  if scaled ≤ 0 then { world }
  else
    let begun := { world.withRegistry world.registry.beginTick with
      time := world.time + Number.widen scaled }
    { world := begun
      frames := (begun.registry.order.map fun id => .tickEntity id scaled) ++ [.endTick scaled] }

/-- Ends a tick: time passes for the cues, the cues of the entities that leave stop, and those that
were queued leave and join. -/
def endTick (world : World) (seconds : Float32) : Progress :=
  let (cues, ticked) := world.cues.tick seconds
  let (world, stopped) := { world with cues }.cancelCues world.registry.departingCues
  { world := world.withRegistry world.registry.endTick
    events := ticked.map .cue ++ stopped }

/-- Lets time pass some times over; a world that is paused or ticking does nothing. -/
def ticks (world : World) (seconds : Float32) : Nat → Progress
  | 0 => { world }
  | count + 1 =>
    if world.paused || world.registry.ticking then { world, frames := [.ticks seconds count] }
    else { world, frames := [.drain, .beginTick seconds, .ticks seconds count] }

end SkillEngine.World
