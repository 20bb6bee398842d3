import RailGrid.World.App

/-!
# Courses of an application

A step of an application succeeds with a value or is refused, and leaves an application either way.
`App.Ensures` states what holds afterwards in both cases, with one rule for each way in which steps
are put together. What can be done with a running application is listed as `App.Action`, so that
what every action keeps is kept by every course of actions.
-/

namespace RailGrid.App

open Step

/-- Started where `P` holds, the step leads to `Q` when it succeeds and to `E` when it is refused. -/
def Ensures {α : Type} (P : App → Prop) (s : AppM α) (Q : α → App → Prop) (E : App → Prop) : Prop :=
  ∀ a, P a →
    match s.run.run a with
    | (.ok v, b) => Q v b
    | (.error _, b) => E b

section Rules

variable {α β : Type} {P P' E : App → Prop} {s : AppM α} {f : α → AppM β} {Q : α → App → Prop}
  {R : β → App → Prop} {a b : App} {v : α} {fault : WorldFault}

theorem Ensures.of_imp (h : Ensures P s Q E) (hP : ∀ a, P' a → P a) : Ensures P' s Q E :=
  fun a ha => h a (hP a ha)

/-- What the start says about the values of the step may be used to prove where it leads. -/
theorem Ensures.of_fact {p : Prop} (hP : ∀ a, P a → p) (h : p → Ensures P s Q E) :
    Ensures P s Q E :=
  fun a ha => h (hP a ha) a ha

/-- What a step leads to may be weakened, after a success as after a refusal. -/
theorem Ensures.mono {Q' : α → App → Prop} {E' : App → Prop} (h : Ensures P s Q E)
    (hQ : ∀ v a, Q v a → Q' v a) (hE : ∀ a, E a → E' a) : Ensures P s Q' E' := by
  intro a ha
  have hled := h a ha
  cases hrun : s.run.run a with
  | mk result b =>
    rw [hrun] at hled
    cases result with
    | ok v => exact hQ v b hled
    | error fault => exact hE b hled

/-- Nothing is asked of the start and nothing said of the end. -/
theorem ensures_true : Ensures (fun _ => True) s (fun _ _ => True) (fun _ => True) := by
  intro a _
  cases s.run.run a with
  | mk result b => cases result <;> trivial

/-- The second step starts where the first one ended, if that succeeded. -/
theorem Ensures.bind (hs : Ensures P s Q E) (hf : ∀ v, Ensures (Q v) (f v) R E) :
    Ensures P (s >>= f) R E := by
  intro a ha
  have hfirst := hs a ha
  rw [run_bind]
  cases hrun : s.run.run a with
  | mk result b =>
    rw [hrun] at hfirst
    cases result with
    | ok v => exact hf v b hfirst
    | error fault => exact hfirst

/-- The step keeps `P`, whether it succeeds or is refused. -/
def Keeps (P : App → Prop) (s : AppM α) : Prop := Ensures P s (fun _ => P) P

theorem keeps_pure : Keeps P (pure v) := fun _ ha => ha

theorem keeps_throw : Keeps P (throw fault : AppM α) := fun _ ha => ha

theorem keeps_get : Keeps P get := fun _ ha => ha

theorem keeps_modify {g : App → App} (h : ∀ a, P a → P (g a)) : Keeps P (modify g) := h

theorem Keeps.bind (hs : Keeps P s) (hf : ∀ v, Keeps P (f v)) : Keeps P (s >>= f) :=
  Ensures.bind hs hf

/-- What a step keeps holds when it succeeds, whatever is asked of a refusal. -/
theorem Keeps.ensures (hs : Keeps P s) : Ensures P s (fun _ => P) (fun _ => True) :=
  hs.mono (fun _ _ h => h) fun _ _ => trivial

theorem Keeps.discard (hs : Keeps P s) : Keeps P (discard s) := hs.bind fun _ => keeps_pure

/-! ### The steps that others are made of -/

theorem run_notify {n : Notice} :
    (notify n).run.run a = (.ok (), { a with notices := a.notices ++ [n] }) := rfl

theorem run_insert {r : Resource} {v : r.Value} :
    (insert r v).run.run a = (.ok (), { a with world := a.world.set r (some v) }) := rfl

theorem run_ofMap {v : α} : (ofMap (.ok v)).run.run a = (.ok v, a) := rfl

theorem run_ofMap_error {f : MapFault} :
    (ofMap (.error f : Except MapFault α)).run.run a = (.error (.map f), a) := rfl

theorem run_enter_of_fresh (hp : p ∉ a.plugins) :
    (enter p).run.run a = (.ok (), { a with plugins := a.plugins ++ [p] }) := by
  have hget : (get : AppM App).run.run a = (.ok a, a) := rfl
  rw [enter, run_bind_of_ok hget, if_neg hp]
  rfl

/-- A resource that is required has the value that the world holds. -/
theorem ensures_require {r : Resource} :
    Ensures P (require r) (fun v a => P a ∧ a.world.get? r = some v) P := by
  intro a ha
  have hget : (get : AppM App).run.run a = (.ok a, a) := rfl
  rw [require, run_bind_of_ok hget]
  cases hv : a.world.get? r with
  | some v => exact ⟨ha, hv⟩
  | none => exact ha

theorem keeps_require {r : Resource} : Keeps P (require r) :=
  ensures_require.mono (fun _ _ h => h.1) fun _ h => h

/-- An outcome on the map becomes a value, or a refusal that changes nothing. -/
theorem ensures_ofMap {result : Except MapFault α} :
    Ensures P (ofMap result) (fun v a => P a ∧ result = .ok v) P := by
  cases result with
  | ok v => exact fun a ha => ⟨ha, rfl⟩
  | error fault => exact fun a ha => ha

theorem keeps_ofMap {result : Except MapFault α} : Keeps P (ofMap result) :=
  ensures_ofMap.mono (fun _ _ h => h.1) fun _ h => h

theorem ensures_insert {r : Resource} {v : r.Value} {Q : Unit → App → Prop} :
    Ensures (fun a => Q () { a with world := a.world.set r (some v) }) (insert r v) Q E :=
  fun _ ha => ha

theorem keeps_notify {n : Notice} (h : ∀ a notices, P a → P { a with notices }) :
    Keeps P (notify n) :=
  keeps_modify fun a ha => h a _ ha

/-- A resource that is there answers, and its new value takes its place. -/
theorem run_ask (r : Resource) (request : r.Value → α × r.Value) {v : r.Value}
    (hv : a.world.get? r = some v) :
    (do
      let (x, v) := request (← require r)
      insert r v
      return x : AppM α).run.run a =
        (.ok (request v).1, { a with world := a.world.set r (some (request v).2) }) := by
  have hget : (get : AppM App).run.run a = (.ok a, a) := rfl
  have hrequire : (require r).run.run a = (.ok v, a) := by
    rw [require, run_bind_of_ok hget, hv]
    rfl
  rw [run_bind_of_ok hrequire]
  rfl

/-- Asking a resource puts a value in its place. -/
theorem keeps_ask {r : Resource} {request : r.Value → α × r.Value}
    (hinsert : ∀ v, Keeps P (insert r v)) :
    Keeps P (do
      let (a, v) := request (← require r)
      insert r v
      return a) := by
  refine keeps_require.bind fun v => ?_
  change Keeps P (do insert r (request v).2; return (request v).1)
  exact (hinsert _).bind fun _ => keeps_pure

/-- Reseeding puts generators in the places of both streams. -/
theorem keeps_reseed {seed : UInt32} (hsim : ∀ g, Keeps P (insert .sim g))
    (hinteractive : ∀ g, Keeps P (insert .interactive g)) : Keeps P (reseed seed) :=
  keeps_require.discard.bind fun _ => keeps_require.discard.bind fun _ =>
    (hsim _).bind fun _ => hinteractive _

theorem keeps_saveAll : Keeps P saveAll := fun _ ha => ha

theorem keeps_enter {p : Plugin} (h : ∀ a plugins, P a → P { a with plugins }) :
    Keeps P (enter p) := by
  refine keeps_get.bind fun b => ?_
  dsimp only
  split
  · exact keeps_throw.bind fun _ => keeps_modify fun a ha => h a _ ha
  · exact keeps_modify fun a ha => h a _ ha

/-- A resource becomes part of the registry, or the call is reported and refused. -/
theorem run_register {r : Resource} : (register r).run.run a =
    match a.registry.register? r with
    | some registry => (.ok (), { a with registry })
    | none => (.error (.keyRegisteredTwice (resourceKey r)),
      { a with notices := a.notices ++ [.keyTaken (resourceKey r)] }) := by
  have hget : (get : AppM App).run.run a = (.ok a, a) := rfl
  rw [register, run_bind_of_ok hget]
  cases a.registry.register? r <;> rfl

theorem ensures_register {r : Resource} {Q : App → Prop}
    (haccepted : ∀ a registry, P a → a.registry.register? r = some registry →
      Q { a with registry })
    (hrefused : ∀ a notices, P a → E { a with notices }) :
    Ensures P (register r) (fun _ => Q) E := by
  intro a ha
  rw [run_register]
  cases hr : a.registry.register? r with
  | some registry => exact haccepted a registry ha hr
  | none => exact hrefused a _ ha

/-- The options in the world are those of the world, or else the standard ones are put there. -/
theorem ensures_initConfig (hinsert : ∀ a, P a → a.world.config = none →
      P { a with world := a.world.set .mapConfig (some {}) }) :
    Ensures P initConfig (fun c a => P a ∧ a.world.config = some c) E := by
  intro a ha
  have hget : (get : AppM App).run.run a = (.ok a, a) := rfl
  rw [initConfig, run_bind_of_ok hget]
  cases hc : a.world.config with
  | some c => exact ⟨ha, hc⟩
  | none => exact ⟨hinsert a ha hc, rfl⟩

/-- An edit puts the edited map in the place of the map, also when it is refused. -/
theorem keeps_editMap_of {t : TileIndex} {e : Edit}
    (hedit : ∀ a m, P a → a.world.get? .tileMap = some m →
      P { a with world := a.world.set .tileMap (some (m.edit t e).2) }) :
    Keeps P (editMap t e) := by
  refine ensures_require.bind fun m => ?_
  change Ensures _ (do insert .tileMap (m.edit t e).2; ofMap (m.edit t e).1) _ _
  have hinsert : Ensures (fun a => P a ∧ a.world.get? .tileMap = some m)
      (insert .tileMap (m.edit t e).2) (fun _ => P) P :=
    ensures_insert.of_imp fun a ha => hedit a m ha.1 ha.2
  exact hinsert.bind fun _ => keeps_ofMap

/-- The plugin for the streams looks for options, puts two generators into the world and registers
them. -/
theorem keeps_addRandom_of
    (hbeside : ∀ a hasEntropy plugins notices, P a → P { a with hasEntropy, plugins, notices })
    (hconfig : ∀ a, P a → a.world.config = none →
      P { a with world := a.world.set .mapConfig (some {}) })
    (hsim : ∀ g, Keeps P (insert .sim g)) (hinteractive : ∀ g, Keeps P (insert .interactive g))
    (hregister : ∀ {r : Resource} a registry, P a → a.registry.register? r = some registry →
      P { a with registry }) :
    Keeps P addRandom := by
  have hinit : Keeps P initConfig := (ensures_initConfig hconfig).mono (fun _ _ h => h.1) fun _ h => h
  have hentropy : Keeps P (modify fun a => { a with hasEntropy := true }) :=
    keeps_modify fun a ha => hbeside a true a.plugins a.notices ha
  have hnotify {n : Notice} : Keeps P (notify n) :=
    keeps_notify fun a notices ha => hbeside a a.hasEntropy a.plugins notices ha
  have henter : Keeps P (enter .random) :=
    keeps_enter fun a plugins ha => hbeside a a.hasEntropy plugins a.notices ha
  have hregistered {r : Resource} : Keeps P (register r) :=
    ensures_register hregister fun a notices ha => hbeside a a.hasEntropy a.plugins notices ha
  exact henter.bind fun _ => hinit.bind fun _ => hentropy.bind fun _ => hnotify.bind fun _ =>
    (hsim _).bind fun _ => (hinteractive _).bind fun _ => hregistered.bind fun _ => hregistered

/-- What the plugins lead to holds of the application that they build. -/
theorem of_build {config : Option MapConfig} {plugins : List Plugin} {R : App → Prop}
    (hplugins : Ensures (fun a => a = { world := { config } }) (plugins.forM addPlugin)
      (fun _ => R) (fun _ => True))
    (hbuild : build config plugins = .ok a) : R a := by
  have hled := hplugins { world := { config } } rfl
  unfold build at hbuild
  cases hrun : (plugins.forM addPlugin).run.run { world := { config } } with
  | mk result b =>
    rw [hrun] at hbuild hled
    cases result with
    | ok v =>
      cases hbuild
      exact hled
    | error fault => cases hbuild

end Rules

/-! ### Courses -/

/-- What can be done with a running application. -/
inductive Action : Type 1 where
  /-- Makes an edit on a tile of the map. -/
  | edit (t : TileIndex) (e : Edit)
  /-- Asks the simulation stream. -/
  | askSim {α : Type} (request : Generator → α × Generator)
  /-- Asks the interactive stream. -/
  | askInteractive {α : Type} (request : Generator → α × Generator)
  /-- Starts both streams anew. -/
  | reseed (seed : UInt32)
  /-- Saves the registered resources. -/
  | saveAll
  /-- Loads the registered resources from a save of any origin. -/
  | loadAll (saved : SaveMap)
  /-- Replaces the registered resources by their defaults. -/
  | resetAll

/-- The step that an action makes. -/
def Action.step : Action → AppM Unit
  | edit t e => editMap t e
  | askSim request => discard (App.askSim request)
  | askInteractive request => discard (App.askInteractive request)
  | reseed seed => App.reseed seed
  | saveAll => discard App.saveAll
  | loadAll saved => App.loadAll saved
  | resetAll => App.resetAll

/-- An action is an edit, a request to the streams, a load or a reset, or it changes nothing. -/
theorem keeps_step_of {P : App → Prop} {x : Action}
    (hedit : ∀ t e a m, P a → a.world.get? .tileMap = some m →
      P { a with world := a.world.set .tileMap (some (m.edit t e).2) })
    (hsim : ∀ g, Keeps P (insert .sim g)) (hinteractive : ∀ g, Keeps P (insert .interactive g))
    (hload : ∀ saved, x = .loadAll saved → Keeps P (App.loadAll saved))
    (hreset : Keeps P App.resetAll) : Keeps P x.step := by
  cases x with
  | edit t e => exact keeps_editMap_of (hedit t e)
  | askSim request =>
    have hask : Keeps P (askSim request) := keeps_ask (r := .sim) hsim
    exact hask.discard
  | askInteractive request =>
    have hask : Keeps P (askInteractive request) := keeps_ask (r := .interactive) hinteractive
    exact hask.discard
  | reseed seed => exact keeps_reseed hsim hinteractive
  | saveAll => exact keeps_saveAll.discard
  | loadAll saved => exact hload saved rfl
  | resetAll => exact hreset

/-- The application that an action leaves, whether its step succeeds or is refused. -/
def act (a : App) (x : Action) : App := (x.step.run.run a).2

/-- The application after actions one after the other; a refused one does not stop the others. -/
def course (a : App) (actions : List Action) : App := actions.foldl act a

/-- What a step keeps holds of the application that its action leaves. -/
theorem Keeps.act {P : App → Prop} {a : App} {x : Action} (hx : Keeps P x.step) (ha : P a) :
    P (a.act x) := by
  have hleft := hx a ha
  rw [App.act]
  cases hrun : x.step.run.run a with
  | mk result b =>
    rw [hrun] at hleft
    cases result with
    | ok v => exact hleft
    | error fault => exact hleft

/-- What every action keeps, refused or not, is kept by every course. -/
theorem course_induction {P : App → Prop} {a : App} (hstep : ∀ x : Action, Keeps P x.step)
    (ha : P a) (actions : List Action) : P (a.course actions) := by
  induction actions generalizing a with
  | nil => exact ha
  | cons x actions ih => exact ih ((hstep x).act ha)

end RailGrid.App
