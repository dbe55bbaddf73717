import CandyDrop.Command.Setup
import CandyDrop.Config.Form
import CandyDrop.Mint.Command
import CandyDrop.Upload.Command

/-!
# Commands

The commands of the program with all their options, and what each does from reading its files to
its last line on the screen. Mint commands need no configuration; they take the machine from the
record of the drop.
-/

namespace CandyDrop

/-- Options of every command. -/
structure CommonOptions where
  env : String
  keypair : Option String
  cacheName : String
  rpcUrl : Option String
  deriving DecidableEq

/-- Options of the commands that make a machine. -/
structure CollectionOptions where
  rateLimit : UInt64
  collectionMint : Option String
  noSetCollectionMint : Bool
  deriving DecidableEq

/-- What the program is told to do. -/
inductive Command where
  | deploy (common : CommonOptions) (configPath : String) (collection : CollectionOptions)
  | upload (directory : String) (common : CommonOptions) (configPath : String)
      (collection : CollectionOptions)
  | mintOne (common : CommonOptions)
  | mintMany (common : CommonOptions) (number : UInt64)
  deriving DecidableEq

/-- Where commands run. -/
structure Surroundings where
  home : String
  /-- The folder of the records of drops. -/
  cacheFolder : String
  /-- The seconds of the clock. -/
  now : Int

namespace Config

/-- The configuration that the content of a file is. -/
def ofContent (path : String) : Content → Except ConfigFault Config
  | .missing => .error (.unopened path)
  | .closed _ => .error (.unopened path)
  | .folder => .error (.unparsable Content.folderReason)
  | .bytes bs =>
    match ofBytes? bs with
    | some c => .ok c
    | none => .error (.unparsable (form.reason bs))

/-- Reads a configuration. -/
def load (path : String) : Script Config := do
  let content ← Script.request (.read path)
  Script.ofExcept .config (ofContent path content)

end Config

namespace CommonOptions

/-- The wallet and the connection of a command. -/
def setup (common : CommonOptions) (home : String) : Script Setup :=
  (Setup.load home common.env common.keypair common.rpcUrl).mapFailure .setup

/-- Where the record of a drop is kept. -/
def place (common : CommonOptions) (folder : String) : CachePlace :=
  ⟨folder, common.env, common.cacheName⟩

end CommonOptions

namespace CollectionOptions

/-- The collection that is wanted. -/
def choice (o : CollectionOptions) : CollectionChoice := ⟨o.collectionMint, !o.noSetCollectionMint⟩

end CollectionOptions

namespace Command

def runDeploy (here : Surroundings) (common : CommonOptions) (configPath : String)
    (collection : CollectionOptions) : Script Unit := do
  let config ← Config.load configPath
  let setup ← common.setup here.home
  let machine ← Deploy.run setup.payer here.now config (common.place here.cacheFolder)
    collection.choice
  Script.say ("\n✅ Candy machine deployed: " ++ machine.text)

def runUpload (here : Surroundings) (directory : String) (common : CommonOptions)
    (configPath : String) (collection : CollectionOptions) : Script Unit := do
  let config ← Config.load configPath
  let setup ← common.setup here.home
  let machine ← Upload.run setup.payer here.now config
    { directory
      place := common.place here.cacheFolder
      choice := collection.choice
      rateLimit := collection.rateLimit.toNat }
  Script.say ("\n✅ Upload successful, candy machine: " ++ machine.text)

/-- The machine that a record names; it has to name one. -/
def recordedMachine (cache : Cache) : Except CacheFault Address := do
  match ← cache.machine with
  | some machine => return machine
  | none => throw (.invalidMachine cache.program.candyMachine)

/-- Mints a number of items, one of them without counting rounds. -/
def mintNumber (payer machine : Address) (number : UInt64) : Script Unit :=
  if number = 1 then do
    let _ ← Minting.mintOne payer machine
    return ()
  else do
    let _ ← Minting.mintMany payer machine number
    return ()

def runMint (here : Surroundings) (common : CommonOptions) (number : UInt64) : Script Unit :=
  if number = 0 then .fail (.mint .zeroNumber)
  else do
    let cache ← Cache.load here.cacheFolder common.env common.cacheName false
    let machine ← Script.ofExcept .cache (recordedMachine cache)
    let setup ← common.setup here.home
    Script.say "[1/1] 🍬 Minting from candy machine"
    Script.say ("Candy machine ID: " ++ machine.text)
    mintNumber setup.payer machine number
    Script.say "\n[Completed]"

/-- What a command does. -/
def run (here : Surroundings) : Command → Script Unit
  | deploy common configPath collection => runDeploy here common configPath collection
  | upload directory common configPath collection =>
    runUpload here directory common configPath collection
  | mintOne common => runMint here common 1
  | mintMany common number => runMint here common number

end Command

end CandyDrop
