import Waterbox.Firmware.Machine

namespace Waterbox

/-!
# `sim800.cpp`

The modem is driven by AT commands on a serial port.  The environment decides every reply; the
model keeps the commands, the order in which they are tried, and the state bits they set.  While
a TCP session is open the port is transparent: what is written to it goes to the peer.
-/

namespace Sim800

variable {F : Type}

/-- The object as its constructor leaves it. -/
def reset : Sim800 where
  on := false
  initialized := false
  registered := false
  tcpConnected := false

def set (f : Sim800 → Sim800) : Fw F Unit :=
  change fun b => { b with radio := { b.radio with modem := f b.radio.modem } }

/-- `ATcommand(command, …)`: pending input is thrown away, the text is sent, and the reply is
    awaited.  `reply.ok` is the value the source returns. -/
def atCommand (command : CString) : Fw F Env := do
  emit (.atCommand command)
  delay 100
  let reply ← next
  pure reply

/-- Send `commands` one after the other, as long as they succeed. -/
def atCommands : List CString → Fw F Bool
  | [] => pure true
  | c :: cs => do
    let reply ← atCommand c
    if reply.ok then atCommands cs else pure false

def switchOn : Fw F Unit := do
  let modem ← look (·.radio.modem)
  if modem.on then pure ()
  else
    delay 3500
    set fun m => { m with on := true }

def resetModem : Fw F Unit := delay 3300

def initOnceAutobaud : Fw F Bool := do
  let reply ← atCommand []
  if reply.ok then
    set fun m => { m with initialized := true }
    pure true
  else pure false

/-- The tries of `init_autobaud()`, with a pause after each. -/
def autobaudTries : Nat → Fw F Bool
  | 0 => pure false
  | n + 1 => do
    if ← initOnceAutobaud then pure true
    else
      delay 5000
      autobaudTries n

def initAutobaud : Fw F Bool := do
  set fun _ => reset
  autobaudTries 3

/-- The loop of `init_fixbaud()` over the baud rates. -/
def fixbaudTries : List Nat → Fw F Bool
  | [] => do
    set fun m => { m with initialized := false }
    pure false
  | rate :: rates => do
    let sync ← atCommand []
    if sync.ok then
      let ipr ← atCommand ("+IPR=".toList ++ Nat.toDigits 10 rate)
      -- the modem answers at this rate and is told to stay with it
      if ipr.ok then
        if ← atCommands ["&F".toList, "&W".toList] then
          set fun m => { m with initialized := true }
          pure true
        else pure false
      else fixbaudTries rates
    else fixbaudTries rates

def initFixbaud : Fw F Bool :=
  fixbaudTries [1200, 2400, 4800, 9600, 19200, 38400, 57600, 115200]

def init : Fw F Bool := do
  switchOn
  resetModem
  if ← initAutobaud then pure true else initFixbaud

/-- The wait of `setup()` for the network registration; `n` answers are still looked at. -/
def waitRegistration : Nat → Fw F Bool
  | 0 => pure false
  | n + 1 => do
    let reply ← atCommand "+CREG?".toList
    -- an answer, but not yet that of a registered modem
    if reply.ok && !reply.found then
      if n = 0 then pure false
      else
        delay 1000
        waitRegistration n
    else pure true

def setup : Fw F Bool := do
  let modem ← look (·.radio.modem)
  if modem.initialized then
    if ← atCommands ["&F".toList, "E0".toList] then waitRegistration 21 else pure false
  else pure false

/-- `getIMEI(imei)`: the text read, and whether it was read. -/
def getImei : Fw F (CString × Bool) := do
  let modem ← look (·.radio.modem)
  if modem.initialized then
    let reply ← atCommand "+GSN".toList
    if reply.ok && reply.found then pure (reply.imei, true)
    -- the text stands in the buffer although the call fails
    else pure ("000000000000000".toList, false)
  else pure ([], false)

/-- `getSignalQualityReport`: the signal strength, where the report could be read. -/
def getSignalQualityReport : Fw F (Option Int) := do
  let modem ← look (·.radio.modem)
  if modem.initialized then
    let reply ← atCommand "+CSQ".toList
    if reply.ok && reply.found then pure (some reply.rssi) else pure none
  else pure none

/-- `RTCget()`; `none` is the time 0. -/
def rtcGet : Fw F (Option DateTime) := do
  let reply ← atCommand "+CCLK?".toList
  if reply.ok then pure reply.rtc else pure none

/-- `TCPGetMyIP`, which writes its command without `ATcommand`. -/
def tcpGetMyIp : Fw F Bool := do
  emit (.atCommand "+CIFSR".toList)
  let reply ← next
  pure (reply.ok && reply.found)

/-- The attachment to GPRS at the start of `TCPstart`. -/
def attachGprs : Fw F Bool := do
  let reply ← atCommand "+CGATT?".toList
  if reply.ok then pure true
  else
    -- not attached yet
    let attach ← atCommand "+CGATT=1".toList
    pure attach.ok

/-- `TCPstart(apn, user, pwd)`, which selects the transparent mode. -/
def tcpStart (apn user pwd : CString) : Fw F Bool := do
  if ← attachGprs then
    let cstt := "+CSTT=\"".toList ++ apn ++ "\",\"".toList ++ user ++ "\",\"".toList ++ pwd ++
      "\"".toList
    let configured ← atCommands
      ["+CIPMODE=1".toList, "+CIPCCFG=8,2,1024,1,0,1460,50".toList, cstt, "+CIICR".toList]
    if configured then
      if ← tcpGetMyIp then
        set fun m => { m with registered := true }
        pure true
      else pure false
    else pure false
  else pure false

def tcpStop : Fw F Bool := do
  set fun m => { m with registered := false, tcpConnected := false }
  let shut ← atCommand "+CIPSHUT".toList
  if shut.ok then
    let reply ← atCommand "+CGATT?".toList
    if reply.ok then pure true
    else
      -- still attached
      let detach ← atCommand "+CGATT=0".toList
      pure detach.ok
  else pure false

def tcpConnect (server : CString) (port : Nat) : Fw F Bool := do
  let modem ← look (·.radio.modem)
  if modem.registered then
    let start ← atCommand
      ("+CIPSTART=\"TCP\",\"".toList ++ server ++ "\",\"".toList ++ Nat.toDigits 10 port ++
        "\"".toList)
    if start.ok then
      -- `CONNECT` comes after `OK`, in its own time
      let reply ← next
      if reply.found then
        set fun m => { m with tcpConnected := true }
        pure true
      else pure false
    else pure false
  else pure false

/-- `transparentescape()`: a pause, the escape sequence, a pause, and an empty command. -/
def transparentEscape : Fw F Bool := do
  delay 1000
  emit (.atCommand "+++".toList)
  delay 1000
  let reply ← atCommand []
  pure reply.ok

def stop : Fw F Unit := do
  set fun m => { m with tcpConnected := false }
  let _ ← transparentEscape
  let _ ← atCommand "+CIPCLOSE=0".toList
  pure ()

end Sim800

end Waterbox
