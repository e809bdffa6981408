import RobotRoutine.Program.Task

/-!
Tasks on the files and streams of the host.

An error of the system becomes a failure with a context text, which says what was being done.
-/

namespace RobotRoutine.Task

variable {ε α : Type}

/-- The value of a file operation; an error of the system gets a context text. -/
def ofSystem (context : String) : Except SystemError α → Task Failure α
  | .ok value => result value
  | .error error => throw (.context context (.plain error.text))

def pathExists (path : String) : Task ε Bool :=
  ofProgram (Program.host (.pathExists path))

def tryReadText (path : String) : Task ε (Except SystemError String) :=
  ofProgram (Program.host (.readText path))

def readText (context path : String) : Task Failure String :=
  (tryReadText path).bind (ofSystem context)

def makeDirectories (context path : String) : Task Failure Unit :=
  (ofProgram (Program.host (.makeDirectories path))).bind (ofSystem context)

def writeText (context path text : String) : Task Failure Unit :=
  (ofProgram (Program.host (.writeText path text))).bind (ofSystem context)

def rename (context source target : String) : Task Failure Unit :=
  (ofProgram (Program.host (.rename source target))).bind (ofSystem context)

def openLog (directory selector : String) : Task ε Unit :=
  ofProgram (Program.host (.openLog directory selector))

def setThreshold (threshold : Option LogThreshold) : Task ε Unit :=
  ofProgram (Program.host (.setThreshold threshold))

def closeLog : Task ε Unit := ofProgram (Program.host .closeLog)

def print (text : String) : Task ε Unit := ofProgram (Program.host (.print text))

def printError (text : String) : Task ε Unit := ofProgram (Program.host (.printError text))

end RobotRoutine.Task
