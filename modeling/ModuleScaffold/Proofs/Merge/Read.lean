import ModuleScaffold.Proofs.Merge.Again
import ModuleScaffold.Source.Middlewares

/-!
# Stores that are read

A source text is read into a store by the same changes that a program makes; besides, reading
complains, remembers comments and notes that the routes have been registered. So a property that
every change by key keeps holds of whatever is read, and what is read is well-formed. The
registration itself only adds routes and settings, so it keeps more than the other statements do.

Main statements:

* `ModuleScaffold.Source.Reading.Kept.add` – **what every step of reading keeps is kept by reading
  one more item**;
* `ModuleScaffold.Store.Kept.readMiddlewares` – **what every change keeps holds of a store that is
  read**;
* `ModuleScaffold.Source.wellFormed_readMiddlewares` – **what is read is well-formed**.
-/

namespace ModuleScaffold

namespace Store

/-- A property of stores that every change by key keeps. -/
structure Kept (P : Store → Prop) : Prop where
  /-- Adding names to an import keeps it. -/
  addImports : ∀ {store : Store} (source : String) (names : List String), P store →
    P (store.addImports source names)
  /-- Inserting a constant keeps it. -/
  insertDefinition : ∀ {store : Store} (d : Definition), P store → P (store.insertDefinition d)
  /-- Adding a route that can be written keeps it. -/
  addRoute : ∀ {store next : Store} {route : Route}, P store → store.addRoute route = .ok next →
    P next
  /-- Adding a statement keeps it. -/
  addStatement : ∀ {store : Store} (statement : String), P store → P (store.addStatement statement)
  /-- Adding a setting keeps it. -/
  addSetting : ∀ {store : Store} (key value : String), P store → P (store.addSetting key value)

theorem kept_wellFormed : Kept WellFormed where
  addImports source names h := h.addImports source names
  insertDefinition d h := h.insertDefinition d
  addRoute h hadded := h.addRoute hadded
  addStatement statement h := h.addStatement statement
  addSetting key value h := h.addSetting key value

end Store

namespace Source

namespace Reading

variable {P : Reading → Prop} {reading : Reading}

/-- A property that the registration of the routes keeps. -/
structure KeptByRegistration (P : Reading → Prop) : Prop where
  /-- Complaining keeps it. -/
  complain : ∀ {reading : Reading} (complaint : Complaint) (f : Fragment), P reading →
    P (reading.complain complaint f)
  /-- Noting that the routes have been registered keeps it. -/
  register : ∀ {reading : Reading}, P reading → P { reading with registered := true }
  /-- Adding a route that can be written keeps it. -/
  addRoute : ∀ {reading : Reading} {route : Route} {store : Store}, P reading →
    reading.store.addRoute route = .ok store → P { reading with store }
  /-- Adding a setting keeps it. -/
  addSetting : ∀ {reading : Reading} (key value : String), P reading →
    P { reading with store := reading.store.addSetting key value }

/-- A property that every step of reading keeps. -/
structure Kept (P : Reading → Prop) : Prop extends KeptByRegistration P where
  /-- Remembering and forgetting comments keeps it. -/
  remember : ∀ {reading : Reading} (comments : List Chars), P reading → P { reading with comments }
  /-- Adding names to an import keeps it. -/
  addImports : ∀ {reading : Reading} (source : String) (names : List String), P reading →
    P { reading with store := reading.store.addImports source names }
  /-- Inserting a constant keeps it. -/
  insertDefinition : ∀ {reading : Reading} (d : Definition), P reading →
    P { reading with store := reading.store.insertDefinition d }
  /-- Adding a statement keeps it. -/
  addStatement : ∀ {reading : Reading} (statement : String), P reading →
    P { reading with store := reading.store.addStatement statement }

/-- What every change of a store keeps is kept by reading. -/
theorem kept_store {P : Store → Prop} (hP : Store.Kept P) :
    Kept fun reading => P reading.store where
  complain _ _ h := h
  register h := h
  addRoute h hadded := hP.addRoute h hadded
  addSetting key value h := hP.addSetting key value h
  remember _ h := h
  addImports source names h := hP.addImports source names h
  insertDefinition d h := hP.insertDefinition d h
  addStatement statement h := by
    dsimp only
    exact hP.addStatement statement h

/-- What every step keeps holds after all of them. -/
theorem kept_foldl {α : Type} {step : Reading → α → Reading}
    (hstep : ∀ (reading : Reading) (a : α), P reading → P (step reading a)) (as : List α)
    (h : P reading) : P (as.foldl step reading) := by
  induction as generalizing reading with
  | nil => exact h
  | cons a as ih => exact ih (hstep reading a h)

/-! ### The registration -/

namespace KeptByRegistration

theorem addRoutes (hP : KeptByRegistration P) (h : P reading) (f : Fragment)
    (routes : List Route) : P (reading.addRoutes f routes) := by
  unfold Reading.addRoutes
  refine kept_foldl (fun reading route h => ?_) routes h
  split
  · next hadded => exact hP.addRoute h hadded
  · exact hP.complain _ f h

theorem addEntry (hP : KeptByRegistration P) (h : P reading) (e : Expr) :
    P (reading.addEntry e) := by
  unfold Reading.addEntry
  split
  · exact hP.complain _ _ h
  · split
    · exact hP.complain _ _ h
    · split
      · split
        · exact hP.addRoutes h _ _
        · exact hP.complain _ _ h
      · exact hP.complain _ _ h

theorem addProperty (hP : KeptByRegistration P) (h : P reading) (m : Member) :
    P (reading.addProperty m) := by
  cases m with
  | pair key value f =>
    unfold Reading.addProperty
    dsimp only
    split
    · split
      · exact kept_foldl (P := P) (fun _ e h => hP.addEntry h e) _ h
      · exact hP.complain _ _ h
    · split
      · exact hP.complain _ f h
      · exact hP.addSetting _ _ h
  | shorthand f => exact hP.complain _ f h
  | other kind f => exact hP.complain _ f h
  | damaged key f => exact hP.complain _ f h

/-- Reading the registration keeps what each of its steps keeps. -/
theorem addRegistration (hP : KeptByRegistration P) (h : P reading) (call : Expr) :
    P (reading.addRegistration call) := by
  unfold Reading.addRegistration
  split
  · exact hP.complain _ _ h
  · simp only
    split
    · exact kept_foldl (P := P) (fun _ m h => hP.addProperty h m) _ (hP.register h)
    · exact hP.complain _ _ (hP.register h)

end KeptByRegistration

/-! ### Items -/

namespace Kept

theorem keep (hP : Kept P) (h : P reading) (sound : Bool) (f : Fragment) :
    P (reading.keep sound f) := by
  unfold Reading.keep
  split
  · dsimp only
    exact hP.addStatement _ h
  · exact hP.complain _ f h

theorem addImport (hP : Kept P) (h : P reading) (form : ImportForm) (f : Fragment) :
    P (reading.addImport form f) := by
  cases form with
  | damaged => exact hP.complain _ f h
  | required => exact hP.complain _ f h
  | source typesOnly parts source => exact hP.addImports _ _ h

theorem addVariables (hP : Kept P) (h : P reading) (exported sound : Bool)
    (ds : List Declarator) (f : Fragment) : P (reading.addVariables exported sound ds f) := by
  unfold Reading.addVariables
  split
  · exact hP.keep h sound f
  · split
    · next d =>
      unfold addSchema
      split
      · exact hP.complain _ _ h
      · split
        · exact hP.complain _ _ h
        · exact hP.insertDefinition _ h
    · exact hP.keep (hP.complain _ f h) sound f

theorem addItem (hP : Kept P) (h : P reading) (found : Item) :
    P (Reading.addStatement reading found) := by
  cases found with
  | comment f => exact h
  | empty f => exact h
  | importing form f => exact hP.addImport h form f
  | declaring exported sound ds f => exact hP.addVariables h exported sound ds f
  | exported value f =>
    unfold Reading.addStatement
    dsimp only
    split
    · exact hP.addRegistration h value
    · exact hP.keep h _ f
  | expression value f => exact hP.keep h true f
  | other f => exact hP.keep h true f
  | damaged f => exact hP.keep h false f
  | unreadable f => exact hP.complain _ f h

/-- **What every step of reading keeps is kept by reading one more item.** -/
theorem add (hP : Kept P) (h : P reading) (found : Item) : P (reading.add found) := by
  unfold Reading.add
  split
  · unfold addComment
    split
    · exact h
    · exact hP.remember _ h
  · exact hP.remember _ (hP.addItem h found)

end Kept

end Reading

end Source

theorem Source.readMiddlewares_fst (text : String) :
    (Source.readMiddlewares text).1 = (Source.read text.toList).store :=
  rfl

/-- **What every change keeps, and the empty store has, holds of a store that is read.** -/
theorem Store.Kept.readMiddlewares {P : Store → Prop} (hP : Store.Kept P) (hempty : P {})
    (text : String) : P (Source.readMiddlewares text).1 :=
  Source.Reading.kept_foldl (P := fun reading => P reading.store)
    (fun _ item h => (Source.Reading.kept_store hP).add h item) (Source.items text.toList) hempty

/-- **What is read is well-formed.** -/
theorem Source.wellFormed_readMiddlewares (text : String) :
    (Source.readMiddlewares text).1.WellFormed :=
  Store.kept_wellFormed.readMiddlewares .empty text

end ModuleScaffold
