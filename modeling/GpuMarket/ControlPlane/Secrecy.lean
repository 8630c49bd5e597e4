import GpuMarket.ControlPlane.Queue
import GpuMarket.ControlPlane.Redaction

namespace GpuMarket

open Lib

/-- Two requests of a run and its twin: equal, or rentals that ask for different keys. -/
inductive Op.SameButKey : Op → Op → Prop
  | same (op : Op) : SameButKey op op
  | createRental (req : CreateRentalRequest) (now : Int) {key key' : String} :
      trim key ≠ "" → trim key' ≠ "" →
      SameButKey (.createRental { req with sshPubkey := some key } now)
        (.createRental { req with sshPubkey := some key' } now)

def RentalRow.SameButKey (r r' : RentalRow) : Prop :=
  { r with sshPubkey := "" } = { r' with sshPubkey := "" }

def Command.SameButKey (cmd cmd' : Command) : Prop :=
  cmd = cmd' ∨ ∃ rentalId image key key',
    cmd = .startRental rentalId image key ∧ cmd' = .startRental rentalId image key'

def CommandRow.SameButKey (env : Env) (c c' : CommandRow) : Prop :=
  { c with payload := "" } = { c' with payload := "" } ∧ ∃ cmd cmd',
    c.payload = env.serde.toString cmd ∧ c'.payload = env.serde.toString cmd' ∧ cmd.SameButKey cmd'

structure Db.SameButKeys (env : Env) (db db' : Db) : Prop where
  machines : db.machines = db'.machines
  accounts : db.accounts = db'.accounts
  rentals : List.Forall₂ RentalRow.SameButKey db.rentals.rows db'.rentals.rows
  invoices : db.invoices = db'.invoices
  ledger : db.ledger = db'.ledger
  commands : List.Forall₂ (CommandRow.SameButKey env) db.commands.rows db'.commands.rows

/-- A command that a heartbeat of the machine may hand out with another key: a start of a rental
that was created on it. -/
def Command.SameForHost (db : Db) (machineId : Int) (cmd cmd' : Command) : Prop :=
  cmd = cmd' ∨ ∃ r ∈ db.rentals.rows, r.machineId = machineId ∧ ∃ image key key',
    cmd = .startRental r.id image key ∧ cmd' = .startRental r.id image key'

/-- The answers to a request are equal but for the keys that a heartbeat brings to its host. -/
def Op.SameReply (db : Db) (op : Op) (v v' : Option (Except ApiError Reply)) : Prop :=
  v = v' ∨ ∃ auth req now machine cmds cmds',
    op = .heartbeat auth req now ∧ authenticate db auth = .ok machine ∧
      v = some (.ok (.commands cmds)) ∧ v' = some (.ok (.commands cmds')) ∧
        List.Forall₂ (Command.SameForHost db machine.id) cmds cmds'

theorem perform_names (env : Env) (ops : List Op) : (perform env ops).Names env :=
  perform_preserves (fun hf hx h => h.exec hf.valid hx) (Db.Names.empty env) ops

theorem forall₂_of_map_eq {α β γ : Type} {f : α → γ} {g : β → γ} {R : α → β → Prop} {xs : List α}
    {ys : List β} (h : xs.map f = ys.map g) (hR : ∀ x ∈ xs, ∀ y ∈ ys, f x = g y → R x y) :
    List.Forall₂ R xs ys := by
  induction xs generalizing ys with
  | nil =>
    obtain rfl : ys = [] := by simpa using h.symm
    exact .nil
  | cons x xs ih =>
    cases ys with
    | nil => cases h
    | cons y ys =>
      obtain ⟨hhead, htail⟩ := List.cons.inj h
      refine .cons (hR x (List.mem_cons_self ..) y (List.mem_cons_self ..) hhead) ?_
      exact ih htail fun x' hx' y' hy' =>
        hR x' (List.mem_cons_of_mem _ hx') y' (List.mem_cons_of_mem _ hy')

theorem Op.SameButKey.redact_eq {op op' : Op} (h : op.SameButKey op') : op.redact = op'.redact := by
  cases h with
  | same => rfl
  | createRental req now hkey hkey' =>
    simp only [Op.redact, CreateRentalRequest.redact, Option.map_some, if_neg hkey, if_neg hkey']

theorem Op.SameButKey.map_redact_eq {ops ops' : List Op} (h : List.Forall₂ Op.SameButKey ops ops') :
    ops.map Op.redact = ops'.map Op.redact := by
  induction h with
  | nil => rfl
  | cons hop _ ih => rw [List.map_cons, List.map_cons, hop.redact_eq, ih]

theorem RentalRow.SameButKey.of_redact {r r' : RentalRow} (h : r.redact = r'.redact) :
    r.SameButKey r' := by
  have blank : ∀ r : RentalRow, { r.redact with sshPubkey := "" } = { r with sshPubkey := "" } :=
    fun _ => rfl
  rw [RentalRow.SameButKey, ← blank r, ← blank r', h]

theorem Command.SameButKey.of_redact {cmd cmd' : Command} (h : cmd.redact = cmd'.redact) :
    cmd.SameButKey cmd' := by
  cases cmd with
  | startRental rentalId image key =>
    cases cmd' with
    | startRental rentalId' image' key' =>
      obtain ⟨rfl, rfl, -⟩ : rentalId = rentalId' ∧ image = image' ∧
          redactKey key = redactKey key' := by
        simpa only [Command.redact, Command.startRental.injEq] using h
      exact .inr ⟨rentalId, image, key, key', rfl, rfl⟩
    | stopRental => cases h
  | stopRental rentalId =>
    cases cmd' with
    | startRental => cases h
    | stopRental rentalId' => exact .inl h

section Redacted

variable {env : Env} (hserde : env.serde.RoundTrip) {db db' : Db}
include hserde

theorem redactPayload_inj {cmd cmd' : Command}
    (h : redactPayload env (env.serde.toString cmd) = redactPayload env (env.serde.toString cmd')) :
    cmd.redact = cmd'.redact := by
  rw [redactPayload_toString hserde, redactPayload_toString hserde] at h
  exact Option.some.inj ((hserde _).symm.trans ((congrArg env.serde.fromStr h).trans (hserde _)))

theorem Db.SameButKeys.of_redact (hnames : db.Names env) (hnames' : db'.Names env)
    (h : db.redact env = db'.redact env) : db.SameButKeys env db' where
  machines := (congrArg Db.machines h :)
  accounts := (congrArg Db.accounts h :)
  rentals := forall₂_of_map_eq (congrArg (fun db => db.rentals.rows) h)
    fun _ _ _ _ heq => .of_redact heq
  invoices := (congrArg Db.invoices h :)
  ledger := (congrArg Db.ledger h :)
  commands := by
    refine forall₂_of_map_eq (congrArg (fun db => db.commands.rows) h) fun c hc c' hc' heq => ?_
    obtain ⟨cmd, hcmd, -⟩ := hnames c hc
    obtain ⟨cmd', hcmd', -⟩ := hnames' c' hc'
    refine ⟨?_, cmd, cmd', hcmd, hcmd', .of_redact (redactPayload_inj hserde ?_)⟩
    · exact congrArg (fun c : CommandRow => { c with payload := "" }) heq
    · rw [← hcmd, ← hcmd']
      exact congrArg CommandRow.payload heq

theorem rental_of_commands (hnames : db.Names env) {machine : MachineRow} {cmds : List Command}
    (h : (undelivered db machine.id).mapM (fun c => decode env c.payload) = .ok cmds)
    {cmd : Command} (hcmd : cmd ∈ cmds) :
    ∃ r ∈ db.rentals.rows, r.id = cmd.rentalId ∧ r.machineId = machine.id := by
  obtain ⟨c, hc, hdecode⟩ := exists_of_mem_mapM h hcmd
  obtain ⟨hmem, hmachine, -⟩ := mem_undelivered.mp hc
  obtain ⟨cmd', hpayload, r, hr, hid, hm⟩ := hnames c hmem
  have hsame : decode env c.payload = .ok cmd' := by rw [decode, hpayload, hserde]
  obtain rfl : cmd' = cmd := Except.ok.inj (hsame.symm.trans hdecode)
  exact ⟨r, hr, hid, hm.trans hmachine⟩

/-- Two heartbeats in states that differ only in keys hand out the same commands, but for the keys
in the starts of the machine's own rentals. -/
theorem heartbeat_sameReply (hnames : db.Names env) (h : db.redact env = db'.redact env)
    (auth : Option String) (req : HeartbeatRequest) (now : Int) :
    (Op.heartbeat auth req now).SameReply db ((Op.heartbeat auth req now).reply env db)
      ((Op.heartbeat auth req now).reply env db') := by
  have same := heartbeat_redact db hserde auth req now
  rw [h, heartbeat_redact db' hserde] at same
  simp only [Op.reply]
  cases hx : heartbeat env auth req now db with
  | error e =>
    cases hx' : heartbeat env auth req now db' with
    | error e' =>
      rw [hx, hx'] at same
      cases same
      exact .inl rfl
    | ok r' =>
      rw [hx, hx'] at same
      cases same
  | ok r =>
    cases hx' : heartbeat env auth req now db' with
    | error e' =>
      rw [hx, hx'] at same
      cases same
    | ok r' =>
      rw [hx, hx'] at same
      have hreply : r'.2.redact = r.2.redact := congrArg Prod.snd (Except.ok.inj same)
      obtain ⟨machine, hm, htx⟩ := bind_eq_ok.mp hx
      obtain ⟨machine', -, htx'⟩ := bind_eq_ok.mp hx'
      obtain ⟨⟨cmds, hcmds, hdecode⟩, -⟩ := heartbeatTx_ok htx
      obtain ⟨⟨cmds', hcmds', -⟩, -⟩ := heartbeatTx_ok htx'
      rw [hcmds, hcmds'] at hreply
      have answer : ∀ {v v' : Reply}, v = v' →
          some (Except.ok v : Except ApiError Reply) = some (.ok v') := by
        rintro v - rfl
        rfl
      refine .inr ⟨auth, req, now, machine, cmds, cmds', rfl, hm, answer hcmds, answer hcmds', ?_⟩
      refine forall₂_of_map_eq (Reply.commands.inj hreply).symm fun cmd hcmd cmd' _ heq => ?_
      obtain rfl | ⟨rentalId, image, key, key', rfl, rfl⟩ := Command.SameButKey.of_redact heq
      · exact .inl rfl
      · obtain ⟨r, hr, rfl, hmachine⟩ := rental_of_commands hserde hnames hdecode hcmd
        exact .inr ⟨r, hr, hmachine, image, key, key', rfl, rfl⟩

theorem Op.sameReply_of_redact {op op' : Op} (hnames : db.Names env)
    (h : db.redact env = db'.redact env) (hop : op.redact = op'.redact) :
    op.SameReply db (op.reply env db) (op'.reply env db') := by
  have isHeartbeat_redact : ∀ op : Op, op.redact.isHeartbeat = op.isHeartbeat := fun op => by
    cases op <;> rfl
  have hbeats : op'.isHeartbeat = op.isHeartbeat := by
    rw [← isHeartbeat_redact op, hop, isHeartbeat_redact]
  cases hbeat : op.isHeartbeat with
  | false =>
    refine .inl ?_
    have hbeat' := hbeats.trans hbeat
    rw [← Op.reply_redact hserde db hbeat, ← Op.reply_redact hserde db' hbeat', h, hop]
  | true =>
    cases op with
    | heartbeat auth req now =>
      cases op' with
      | heartbeat auth' req' now' =>
        cases hop
        exact heartbeat_sameReply hserde hnames h auth req now
      | _ => cases hbeats
    | _ => cases hbeat

end Redacted

/-- Two runs of the same operations with other keys, none of them blank, end in states that differ
in the keys only, and answer every request alike, but for the keys in the start commands that a
heartbeat brings to the machine on which the rental was created. -/
theorem keys_confined {env : Env} (hserde : env.serde.RoundTrip) {ops ops' : List Op}
    (h : List.Forall₂ Op.SameButKey ops ops') :
    (perform env ops).SameButKeys env (perform env ops') ∧
    ∀ n (op op' : Op), ops[n]? = some op → ops'[n]? = some op' →
      op.SameReply (perform env (ops.take n)) (op.reply env (perform env (ops.take n)))
        (op'.reply env (perform env (ops'.take n))) := by
  have states : ∀ {ops ops' : List Op}, List.Forall₂ Op.SameButKey ops ops' →
      (perform env ops).redact env = (perform env ops').redact env := by
    intro ops ops' h
    rw [← perform_redact hserde, ← perform_redact hserde, Op.SameButKey.map_redact_eq h]
  refine ⟨.of_redact hserde (perform_names env ops) (perform_names env ops') (states h), ?_⟩
  intro n op op' hop hop'
  have redacts : op.redact = op'.redact := by
    have hmap := congrArg (·[n]?) (Op.SameButKey.map_redact_eq h)
    simpa only [List.getElem?_map, hop, hop', Option.map_some, Option.some.injEq] using hmap
  exact Op.sameReply_of_redact hserde (perform_names env _) (states (List.forall₂_take n h)) redacts

/-- A tenant rents with the key, and the host asks for its commands. -/
def rentedWith (key : String) : List Op :=
  [.register testHost "agt_1" 0, .createAccount "acct_1" 0,
    .deposit "acct_1" ⟨100⟩ (some ⟨"lnbc1", "01"⟩) 0, .pollInvoices (fun _ => some true) fun _ => 0,
    .createRental ⟨1, "acct_1", "nvidia/cuda:latest", some key⟩ 0, .heartbeat bearer ⟨true⟩ 30]

theorem keys_confined_rented :
    List.Forall₂ Op.SameButKey (rentedWith "ssh-ed25519 AAAA") (rentedWith "ssh-rsa BBBB") ∧
    (perform testEnv (rentedWith "ssh-ed25519 AAAA")).SameButKeys testEnv
      (perform testEnv (rentedWith "ssh-rsa BBBB")) ∧
    (Op.heartbeat bearer ⟨true⟩ 30).SameReply
      (perform testEnv ((rentedWith "ssh-ed25519 AAAA").take 5))
      ((Op.heartbeat bearer ⟨true⟩ 30).reply testEnv
        (perform testEnv ((rentedWith "ssh-ed25519 AAAA").take 5)))
      ((Op.heartbeat bearer ⟨true⟩ 30).reply testEnv
        (perform testEnv ((rentedWith "ssh-rsa BBBB").take 5))) ∧
    (perform testEnv (rentedWith "ssh-ed25519 AAAA")).rentals.rows.map (·.sshPubkey) =
      ["ssh-ed25519 AAAA"] ∧
    (perform testEnv (rentedWith "ssh-rsa BBBB")).rentals.rows.map (·.sshPubkey) =
      ["ssh-rsa BBBB"] := by
  have same : List.Forall₂ Op.SameButKey (rentedWith "ssh-ed25519 AAAA")
      (rentedWith "ssh-rsa BBBB") :=
    .cons (.same _) <| .cons (.same _) <| .cons (.same _) <| .cons (.same _) <|
      .cons (.createRental ⟨1, "acct_1", "nvidia/cuda:latest", none⟩ 0 (by decide) (by decide)) <|
        .cons (.same _) .nil
  have confined := @keys_confined testEnv Serde.json_roundTrip _ _ same
  exact ⟨same, confined.1, confined.2 5 _ _ rfl rfl, by decide +kernel, by decide +kernel⟩

end GpuMarket
