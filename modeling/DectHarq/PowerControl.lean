/-
This file settles what the power control keeps for a peer.

An optimization stores the power that the measured path loss requires, as far as there is a
code for it. Between two optimizations the power is changed by the search for a packet
length and by the retransmissions, which add to it, and by nothing else, but a sum above
the configured power is replaced by the configured one. So in every run the power for a
peer sustains the smallest loss that was measured to it, or it is at least the configured
power: a new record starts with the configured power too.
-/

import DectHarq.LinkAdaptation
import DectHarq.NodeRegisters

namespace DectHarq

variable {config : Config}

/-! ### The power of a record -/

/-- An adjustment that the program makes: the power of a record is stored by the optimizations
only, and a power that is added is not negative. -/
def Adjustment.Raises : Adjustment → Prop
  | .setTxPower _ => False
  | .addPower powerToAdd => 0 ≤ powerToAdd ∧ powerToAdd ≤ 127
  | _ => True

/-- A power that reaches the target and the margin over a path loss, or is at least the configured
one. -/
def PowerSustains (config : Config) (loss : Int) (txPower : Nat) : Prop :=
  config.txPower ≤ txPower ∨
    loss + config.rssiTarget + config.txPowerMarginDbm ≤ receivedTxPowerDbm txPower

/-- A record whose power sustains a loss and is a code that an optimization may store. -/
def Node.Sustains (config : Config) (loss : Int) (node : Node) : Prop :=
  node.txPower ≤ powerLimit ∧ PowerSustains config loss node.txPower

theorem receivedTxPowerDbm_mono {less more : Nat} (increases : less ≤ more)
    (nominal : more ≤ powerLimit) : receivedTxPowerDbm less ≤ receivedTxPowerDbm more := by
  unfold powerLimit at nominal
  interval_cases more <;> interval_cases less <;> decide

theorem sustains_configured (loss : Int) : PowerSustains config loss config.txPower :=
  Or.inl le_rfl

/-- The power of an optimization sustains the loss that it measured. -/
theorem sustains_wanted {loss rssi2 : Int} {received : Nat}
    (measured : loss ≤ receivedTxPowerDbm received - rssi2) :
    PowerSustains config loss (wantedTxPower (wantedDbm config rssi2 received)) := by
  have margin : int8 config.txPowerMarginDbm = config.txPowerMarginDbm :=
    int8_eq_self config.txPowerMarginDbm_range.1 (Int.lt_add_one_iff.mpr
      config.txPowerMarginDbm_range.2)
  rcases (wantedTxPower_isLeast (wantedDbm config rssi2 received)).1 with ⟨_, _, enough⟩ | full
  · right
    refine le_trans ?_ enough
    unfold wantedDbm
    rw [margin]
    omega
  · left
    rw [full]
    exact config.txPower_range

/-- A power that is added is not lost, unless the configured one takes its place. -/
theorem sustains_added {loss power : Int} {txPower : Nat} (nominal : txPower ≤ powerLimit)
    (least : 0 ≤ power) (most : power ≤ 127) (sustained : PowerSustains config loss txPower) :
    let sum := uint8 (txPower + int8 power)
    PowerSustains config loss (if sum > config.txPower then config.txPower else sum) := by
  intro sum
  have range := config.txPower_range
  have kept : txPower ≤ sum := by
    have added : int8 power = power := int8_eq_self (by omega) (by omega)
    unfold powerLimit at nominal
    show txPower ≤ uint8 (txPower + int8 power)
    rw [added, uint8]
    omega
  split
  · exact sustains_configured loss
  · rename_i within
    rcases sustained with above | enough
    · exact Or.inl (le_trans above kept)
    · exact Or.inr (le_trans enough (receivedTxPowerDbm_mono kept
        (le_trans (Nat.le_of_not_lt within) range)))

/-- An adjustment of a record whose power has to sustain a loss. -/
def Adjustment.Meets (config : Config) (loss : Int) : Adjustment → Prop
  | .setTxPower txPower => txPower ≤ powerLimit ∧ PowerSustains config loss txPower
  | .addPower powerToAdd => 0 ≤ powerToAdd ∧ powerToAdd ≤ 127
  | _ => True

theorem Adjustment.Raises.meets {adjustment : Adjustment} (raises : adjustment.Raises)
    (loss : Int) : adjustment.Meets config loss := by
  cases adjustment with
  | setTxPower txPower => exact raises.elim
  | addPower powerToAdd => exact raises
  | _ => trivial

/-- An operation of the program on the register of an address whose power has to sustain a loss. -/
def RecordOp.Meets (config : Config) (loss : Int) : RecordOp → Prop
  | .store node => node.txPower = config.txPower
  | .adjust adjustment => adjustment.Meets config loss
  | .provide fresh => ∀ node ∈ fresh, node.txPower = config.txPower
  | _ => True

theorem Adjustment.Meets.sustains {loss : Int} {adjustment : Adjustment}
    (meets : adjustment.Meets config loss) {node : Node} (held : node.Sustains config loss) :
    (adjustment.adjusted config node).Sustains config loss := by
  obtain ⟨nominal, sustained⟩ := held
  have range := config.txPower_range
  cases adjustment with
  | setTxPower txPower => exact meets
  | setMcs mcs => exact ⟨nominal, sustained⟩
  | fullPower => exact ⟨range, sustains_configured loss⟩
  | addPower powerToAdd =>
    refine ⟨?_, sustains_added nominal meets.1 meets.2 sustained⟩
    dsimp only [Adjustment.adjusted, Adjustment.update]
    split
    · exact range
    · rename_i within
      exact le_trans (Nat.le_of_not_lt within) range
  | reduceMcs mcsMax mcsToReduce =>
    dsimp only [Adjustment.adjusted, Adjustment.update]
    split_ifs <;> exact ⟨nominal, sustained⟩

theorem fresh_sustains {loss : Int} {node : Node} (fresh : node.txPower = config.txPower) :
    node.Sustains config loss :=
  ⟨le_of_eq_of_le fresh config.txPower_range, Or.inl fresh.ge⟩

/-- An operation keeps the power sufficient. -/
theorem RecordOp.Meets.apply {loss : Int} {operation : RecordOp}
    (meets : operation.Meets config loss) {record : Option Node}
    (held : ∀ node ∈ record, node.Sustains config loss) :
    ∀ node ∈ operation.apply config record, node.Sustains config loss := by
  intro node after
  cases operation with
  | mark =>
    obtain ⟨old, present, rfl⟩ := Option.map_eq_some_iff.mp after
    exact held old present
  | store new =>
    cases after
    exact fresh_sustains meets
  | adjust adjustment =>
    obtain ⟨old, present, rfl⟩ := Option.map_eq_some_iff.mp after
    exact Adjustment.Meets.sustains meets (held old present)
  | provide fresh =>
    rcases Option.or_eq_some_iff.mp after with present | ⟨_, new⟩
    · exact held node present
    · exact fresh_sustains (meets node new)
  | remove => cases after
  | clear =>
    obtain ⟨old, present, rfl⟩ := Option.map_eq_some_iff.mp after
    exact held old present

/-- Operations that keep the power sufficient leave it sufficient. -/
theorem recordAfter_sustains {loss : Int} {operations : List RecordOp}
    (meets : ∀ operation ∈ operations, operation.Meets config loss) :
    ∀ node ∈ recordAfter config operations, node.Sustains config loss :=
  List.foldlRecOn (motive := fun record : Option Node => ∀ node ∈ record, node.Sustains config loss)
    operations _ (fun node missing => absurd missing (Option.not_mem_none node))
    fun _ held operation member => (meets operation member).apply held

/-! ### Whole runs -/

section Runs

variable {Thread : Type}

/-- An event that uses the record of an address as the program does. An optimization of the record
measures at least some path loss: the power of the reception less its level. -/
def LifeEvent.Meets (config : Config) (address : Nat) (loss : Int) : LifeEvent Thread → Prop
  | .access (.adjust _ adjustment own) => own = address → adjustment.Raises
  | .access (.optimize _ _ own rssi2 _ received _ _) =>
    own = address → loss ≤ receivedTxPowerDbm received - rssi2
  | .create _ _ _ own txPower _ => own = address → txPower = config.txPower
  | _ => True

/-- An optimization of the record of an address has only stores left that keep its power
sufficient. -/
def LifeState.Tunes (config : Config) (address : Nat) (loss : Int) (state : LifeState Thread) :
    Prop :=
  ∀ optimization ∈ state.optimization, optimization.address = address →
    ∀ adjustment ∈ optimization.stores, adjustment.Meets config loss

theorem freshRecord_power {outcome : Allocation} {address mcsMax : Nat} {node : Node}
    (fresh : node ∈ freshRecord config outcome address mcsMax) :
    node.txPower = config.txPower := by
  unfold freshRecord at fresh
  split at fresh
  · cases fresh
    rfl
  · cases fresh

theorem recordOp_meets {address : Nat} {loss : Int} {state : LifeState Thread}
    {event : LifeEvent Thread} {operation : RecordOp} (tunes : state.Tunes config address loss)
    (meets : event.Meets config address loss)
    (own : recordOp config address state event = some operation) :
    operation.Meets config loss := by
  unfold recordOp at own
  split at own
  · split at own
    · cases own
      trivial
    · cases own
  · split at own
    · obtain ⟨node, fresh, rfl⟩ := Option.map_eq_some_iff.mp own
      exact freshRecord_power fresh
    · cases own
  · split at own
    · rename_i same
      cases own
      exact (meets same).meets loss
    · cases own
  · split at own
    · cases own
      exact fun node => freshRecord_power
    · cases own
  · split at own
    · cases own
      trivial
    · cases own
  · split at own
    · rename_i optimizing
      split at own
      · rename_i same
        cases own
        exact tunes _ optimizing same _ List.mem_cons_self
      · cases own
    · cases own
  · split at own
    · rename_i both
      cases own
      exact meets both.1
    · cases own
  · split at own
    · split at own
      · cases own
        trivial
      · cases own
    · split at own
      · cases own
        trivial
      · cases own
    · cases own

variable [DecidableEq Thread]

/-- An optimization of the program begins with stores that keep the power sufficient, and the others
begin nothing. -/
theorem accessStep_tunes {before after : NodeState Thread} {optimization : Option Optimization}
    {event : NodeEvent Thread} {address : Nat} {loss : Int}
    (meets : (LifeEvent.access event).Meets config address loss)
    (stepped : accessStep config before event = .ok (after, optimization)) :
    ∀ begun ∈ optimization, begun.address = address →
      ∀ adjustment ∈ begun.stores, adjustment.Meets config loss := by
  unfold accessStep at stepped
  split at stepped
  · split at stepped
    · obtain ⟨⟨code, heap⟩, _, rest⟩ := bind_ok.mp stepped
      cases rest
      intro begun own same adjustment member
      cases own
      rcases List.mem_cons.mp member with rfl | second
      · exact ⟨wantedTxPower_le _, sustains_wanted (meets same)⟩
      · obtain rfl := List.mem_singleton.mp second
        trivial
    · cases stepped
  · obtain ⟨nodes, _, same⟩ := bind_ok.mp stepped
    cases same
    exact fun begun none => absurd none (Option.not_mem_none begun)

theorem LifeState.Tunes.step {before after : LifeState Thread} {event : LifeEvent Thread}
    {address : Nat} {loss : Int} (tunes : before.Tunes config address loss)
    (meets : event.Meets config address loss) (stepped : lifeStep config before event = .ok after) :
    after.Tunes config address loss := by
  unfold lifeStep at stepped
  split at stepped
  · split at stepped
    · obtain ⟨⟨nodes, optimization⟩, accessed, same⟩ := bind_ok.mp stepped
      cases same
      exact accessStep_tunes meets accessed
    · cases stepped
  · split at stepped
    · rename_i own adjustment stores optimizing
      cases stepped
      intro left kept same later member
      dsimp only at kept
      split at kept
      · cases kept
      · cases kept
        exact tunes _ optimizing same later (List.mem_cons_of_mem _ member)
    · cases stepped
  · split at stepped
    · obtain ⟨⟨code, heap⟩, _, rest⟩ := bind_ok.mp stepped
      cases rest
      exact tunes
    · cases stepped
  · split at stepped
    · cases stepped
    · obtain ⟨⟨heap, cleaner⟩, _, rest⟩ := bind_ok.mp stepped
      cases rest
      exact tunes

/-- In every run in which the record of a peer is used as the program does and no optimization for
it measures less than some path loss, the power that a getter gives for the peer reaches the
target and the margin over this loss, or is at least the configured one. -/
theorem power_sustained
    {steps : List (Transition.Step (LifeState Thread) (LifeEvent Thread))}
    {final : LifeState Thread} (run : LifeRun config steps final) (address : Nat) (loss : Int)
    (meets : ∀ taken ∈ steps, taken.label.Meets config address loss) :
    PowerSustains config loss
      ((checkSection Node.txPower address final.heap).1.getD config.txPower) := by
  have tunes : ∀ taken ∈ steps, taken.before.Tunes config address loss :=
    run.invariant_before (LifeState.Tunes config address loss)
      (fun _ event => event.Meets config address loss)
      (fun _ _ _ meets tunes stepped => tunes.step meets stepped) meets
      fun begun none => absurd none (Option.not_mem_none begun)
  have operations : ∀ operation ∈ recordOps config address steps,
      operation.Meets config loss := by
    intro operation member
    obtain ⟨taken, listed, own⟩ := List.mem_filterMap.mp member
    exact recordOp_meets (tunes taken listed) (meets taken listed) own
  rw [checkSection_eq, (records_of_lifeRun run).2 address]
  cases found : recordAfter config (recordOps config address steps) with
  | none => exact sustains_configured loss
  | some node => exact (recordAfter_sustains operations node found).2

end Runs

/-! ### A near peer -/

/-- A reception at -50 dBm of a packet that was sent with 19 dBm creates node 7; the search for a
packet length and a retransmission add to its power, and a pass comes and goes. -/
def nearPeer : List (LifeEvent Unit) :=
  [.access (.optimize () 4 7 (-50) 10 13 1 .inserted), .store, .store,
    .access (.adjust () (.addPower 1) 7),
    .pass (.start (some 1)), .pass .finish, .pass .test, .pass .clear, .access (.check () 7),
    .access (.adjust () (.addPower 2) 7)]

/-- The loss to node 7 is 69 dB, and its power is now -4 dBm. -/
theorem power_sustained_near :
    PowerSustains projectConfig 69
      ((checkSection Node.txPower 7 (nearPeer.foldl (Transition.follow (lifeStep projectConfig))
        lifeAtBoot).heap).1.getD 13) :=
  power_sustained (Transition.followAll_run (lifeStep projectConfig) lifeAtBoot nearPeer
    (by decide +kernel)) 7 69 (Transition.followAll_labels _ _ _ (by
      simp [nearPeer, LifeEvent.Meets, Adjustment.Raises, receivedTxPowerDbm]))

end DectHarq
