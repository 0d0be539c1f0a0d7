import Uranus.Gateway.Gateway

/-! The login module: a request that cannot be parsed is answered through the
agent that waits under its key, any other one logs in. -/
namespace Uranus
open Foundation Program

structure ILoginHandler where
  parseLoginRequest : FPacket → Except String (String × Int64)

/-- A game in whose requests no token is found. -/
def emptyParser : ILoginHandler := ⟨fun _ => .ok ("", 0)⟩

def recordLogin (update : Table String Int → Table String Int) : GatewayM Unit :=
  modify fun s => { s with
    login := s.login.map fun login => { login with recentLoginMap := update login.recentLoginMap } }

def onLoginSuccess (factory : IPlayerFactory) (key : String) (pid : Int64) : GatewayM Unit := do
  recordLogin fun recent => recent.erase key
  onPlayerLogin factory key pid

/-- `OnLoginRequest` up to the call of `OnLoginSuccess`, which it makes with the
player id that comes out. `now` is the reading of the steady clock, in
nanoseconds. -/
def checkRequest (parser : ILoginHandler) (now : Int) (key : String) (pkg : FPacket) :
    GatewayM (Option Int64) := do
  match (← get).login with
  | none => pure none
  | some login =>
    if login.state ≠ .running then pure none
    else if (login.recentLoginMap.lookup key).any fun last => now - last < 1000000000 then pure none
    else do
      recordLogin fun recent => recent.insert key now
      match parser.parseLoginRequest pkg with
      | .error what => throw (.exception what)
      | .ok (token, pid) =>
        if token = "" ∨ pid = 0 then do
          let agent ← findAgent key
          match agent with
          | none => pure none
          | some id => do
            onLoginFailed id 0 "Fail To Parse Token"
            pure none
        else pure (some pid)

def onLoginRequest (factory : IPlayerFactory) (parser : ILoginHandler) (now : Int) (key : String)
    (pkg : FPacket) : GatewayM Unit := do
  let pid ← checkRequest parser now key pkg
  match pid with
  | none => pure ()
  | some pid => onLoginSuccess factory key pid

/-- A check does what the records of its requests do. -/
theorem checkRequest_within {R : UGateway → UGateway → Prop} [IsPreorder UGateway R]
    (record : ∀ update, Within R (recordLogin update))
    (parser : ILoginHandler) (now : Int) (key : String) (pkg : FPacket) :
    Within R (checkRequest parser now key pkg) := by
  apply Within.bind (R := R) Within.get
  intro s
  cases s.login with
  | none => exact Within.pure none
  | some login =>
    dsimp only
    split
    · exact Within.pure none
    split
    · exact Within.pure none
    apply Within.bind (record _)
    intro _
    cases parser.parseLoginRequest pkg with
    | error what => exact Within.throw _
    | ok request =>
      dsimp only
      split
      · apply Within.bind (R := R) (Within.of_same (findAgent_same key))
        intro agent
        cases agent with
        | none => exact Within.pure none
        | some id =>
          exact Within.bind (Within.of_same (notify_same _ _ _)) fun _ => Within.pure none
      · exact Within.pure _

end Uranus
