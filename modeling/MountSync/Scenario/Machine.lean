/-
The machine on which scripts are played.

A link can lead anywhere, so what lies outside all mounts has a say in what a call finds.  Here is
the part of a machine that scripts lead to, as far as it is the same everywhere: an inventory of
entries by the directory that they are in, and the directories of the process that looks, under
numbers that nobody can guess.  No call depends on it but for what a script has linked to.

In a list of files a name can have a content behind an equals sign, to which the end of a line
belongs.  Where there is none, the content differs from machine to machine and is left out.  The
kernel makes up the content of its files only when they are read, and tells no size of them.  Their
time is that of the first look at them.
-/
import MountSync.FileTree.Lookup

namespace MountSync

namespace Inventory

/-- The words of some lines. -/
def words (lines : List String) : List String := lines.flatMap (·.splitOn " ")

/-- Directories. -/
def directories : List (String × List String) :=
  [("/", ["boot dev etc home media mnt opt proc root run srv sys tmp usr var"]),
    ("/dev", ["net pts shm"]),
    ("/proc", ["1 bus driver fs irq sys sysvipc tty"]),
    ("/proc/sys", ["abi debug dev fs kernel net user vm"]),
    ("/proc/sys/kernel", ["keys pty random"]),
    ("/run", ["lock"]),
    ("/sys", ["block bus class dev devices firmware fs kernel module power"]),
    ("/usr", ["bin games include lib lib64 local sbin share src"]),
    ("/usr/local", ["bin etc games include lib sbin share src"]),
    ("/var", ["backups cache lib local log mail opt spool tmp"])]

/-- Links, with their targets. -/
def links : List (String × String) :=
  [("/bin", "usr/bin"), ("/lib", "usr/lib"), ("/lib64", "usr/lib64"), ("/sbin", "usr/sbin"),
    ("/dev/fd", "/proc/self/fd"), ("/dev/stderr", "/proc/self/fd/2"),
    ("/dev/stdin", "/proc/self/fd/0"), ("/dev/stdout", "/proc/self/fd/1"),
    ("/proc/mounts", "self/mounts"), ("/proc/net", "self/net"), ("/var/lock", "/run/lock"),
    ("/var/run", "/run")]

/-- Devices that are read without an end, or not at all. -/
def devices : List (String × List String) :=
  [("/dev", ["console full kmsg ptmx random tty tty0 tty1 ttyS0 urandom zero"])]

/-- Files that keep their content. -/
def files : List (String × List String) :=
  [("/etc",
      ["debian_version fstab group host.conf hostname hosts issue ld.so.cache ld.so.conf",
        "login.defs machine-id networks nsswitch.conf passwd profile resolv.conf shadow shells"]),
    ("/usr/bin", ["bash cat cp env false ls mv rm sed sort tar true"])]

/-- Files that tell of the kernel and its devices, or set them. -/
def kernelFiles : List (String × List String) :=
  [("/proc",
      ["buddyinfo cgroups cmdline consoles cpuinfo crypto devices diskstats execdomains",
        "filesystems interrupts iomem ioports kallsyms key-users keys kmsg loadavg locks",
        "meminfo misc mtrr pagetypeinfo partitions slabinfo softirqs stat swaps timer_list",
        "uptime version vmallocinfo vmstat zoneinfo"]),
    ("/proc/sys/kernel",
      ["arch=x86_64 cap_last_cap=40 core_pattern=core domainname=(none) hostname osrelease",
        "ostype=Linux panic=1 pid_max=32768 threads-max version"])]

/-! A process has the same entries as each of its threads, in its own directory. -/

/-- Directories of each process and each thread. -/
def processDirectories : List String := ["attr", "fd", "fdinfo", "ns"]

/-- Files of each process and each thread. -/
def processFiles : List String :=
  ["arch_status auxv cgroup cmdline comm coredump_filter=00000033 cpuset environ gid_map io",
    "limits loginuid maps mountinfo mounts mountstats numa_maps oom_adj=0 oom_score",
    "oom_score_adj=0 pagemap personality=00000000 projid_map sched schedstat sessionid",
    "setgroups=allow smaps smaps_rollup stack stat statm status syscall timens_offsets timers",
    "timerslack_ns=50000 uid_map wchan"]

/-- Files of each process and each thread that cannot be read, by the directory they are in. -/
def closedProcessFiles : List (List String × List String × IoFault) :=
  [([], ["clear_refs"], .invalidArgument),
    ([], ["mem"], .inputOutput),
    (["attr"], ["current exec fscreate keycreate prev sockcreate"], .invalidArgument),
    (["ns"],
      ["cgroup ipc mnt net pid pid_for_children time time_for_children user uts"],
      .invalidArgument)]

/-- What is in files of each process and each thread that hold more than one word, or no end
of a line. -/
def processTexts : List (String × String) :=
  [("cpuset", "/\n"), ("loginuid", "4294967295"), ("sessionid", "4294967295"), ("wchan", "0")]

end Inventory

/-- The place of an absolute path that holds no dots. -/
def Place.ofPath (path : String) : Place :=
  ((pathComponents path.toList).filter (· ≠ [])).reverse.map fun name => .text (String.ofList name)

/-- The directory of the process that looks. -/
def processDirectory : Place := [.random "" 0 "", .text "proc"]

/-- The directory of the thread that looks. -/
def threadDirectory : Place := .random "" 1 "" :: .text "task" :: processDirectory

/-- The directory where relative paths begin. -/
def workingDirectory : Place := [.random "" 1 "", .random "" 0 ""]

namespace FileTree

/-- Puts nodes into a directory. -/
def furnish (t : FileTree) (directory : Place) (names : List String) (node : Node) : FileTree :=
  names.foldl (fun t name => t.put (.text name :: directory) node) t

/-- The name and the content that an entry of an inventory tells. -/
def readEntry (entry : String) : String × Bytes :=
  match entry.splitOn "=" with
  | name :: content :: _ => (name, (content ++ "\n").toUTF8.data.toList)
  | _ => (entry, [])

/-- Puts files into a directory. -/
def stock (t : FileTree) (directory : Place) (facade : Option Facade) (lines : List String) :
    FileTree :=
  (Inventory.words lines).foldl (fun t entry =>
    let (name, content) := readEntry entry
    let f : File := { content, modified := .atSecond 0, inode := t.nextInode, facade }
    { t.put (.text name :: directory) (.file f) with nextInode := t.nextInode + 1 }) t

/-- Puts files of the kernel into a directory, of which no size is told. -/
def stockKernel (t : FileTree) (directory : Place) (fault : Option IoFault)
    (lines : List String) : FileTree :=
  t.stock directory (some ⟨0, fault⟩) lines

/-- Gives a file a content. -/
def fill (t : FileTree) (p : Place) (text : String) : FileTree :=
  t.changeFile p fun f => { f with content := text.toUTF8.data.toList }

/-- Makes the directory of a process or a thread. -/
def addProcess (t : FileTree) (directory : Place) : FileTree :=
  let t := (t.put directory .directory).furnish directory Inventory.processDirectories .directory
  let t := t.furnish (.text "fd" :: directory) ["0", "1", "2"] (.special none)
  let t := t.furnish directory ["cwd"] (.jump workingDirectory)
  let t := t.furnish directory ["root"] (.jump [])
  let t := t.stock directory none ["exe"]
  let t := t.stockKernel directory none Inventory.processFiles
  let t := Inventory.closedProcessFiles.foldl (fun t (below, lines, fault) =>
    t.stockKernel (below.map .text ++ directory) (some fault) lines) t
  Inventory.processTexts.foldl (fun t (name, text) => t.fill (.text name :: directory) text) t

/-- Adds the directories of processes. -/
def addProcesses (t : FileTree) : FileTree :=
  let network : Place := .text "net" :: processDirectory
  let first : Place := .ofPath "/proc/1"
  let t := [processDirectory, threadDirectory, first].foldl addProcess t
  let t := t.furnish processDirectory ["map_files", "net", "task"] .directory
  let t := t.furnish threadDirectory ["net"] (.jump network)
  let t := t.furnish first ["map_files", "task"] .directory
  let t := t.furnish first ["net"] (.jump network)
  let t := t.furnish (.ofPath "/proc") ["self"] (.jump processDirectory)
  t.furnish (.ofPath "/proc") ["thread-self"] (.jump threadDirectory)

/-- Adds the entries of the inventory that belong to no process. -/
def addEntries (t : FileTree) : FileTree :=
  let t := Inventory.directories.foldl (fun t (directory, lines) =>
    t.furnish (.ofPath directory) (Inventory.words lines) .directory) t
  let t := Inventory.devices.foldl (fun t (directory, lines) =>
    t.furnish (.ofPath directory) (Inventory.words lines) (.special none)) t
  let t := t.furnish (.ofPath "/dev") ["null"] (.special (some []))
  let t := Inventory.links.foldl (fun t (path, target) => t.put (.ofPath path) (.link target)) t
  let t := Inventory.files.foldl (fun t (directory, lines) =>
    t.stock (.ofPath directory) none lines) t
  Inventory.kernelFiles.foldl (fun t (directory, lines) =>
    t.stockKernel (.ofPath directory) none lines) t

/-- The tree of a machine on which nobody has done anything yet. -/
def standard : FileTree :=
  let t := (bare.put workingDirectory.tail .directory).put workingDirectory .directory
  t.addEntries.addProcesses

/-- The tree of such a machine on which the files of the kernel are looked at first at a given
time. -/
def standardAt (now : UnixTime) : FileTree :=
  { standard with nodes := standard.nodes.map fun _ node => node.mapFile fun f =>
      if f.facade.isSome then { f with modified := .atSecond now } else f }

end FileTree

end MountSync
