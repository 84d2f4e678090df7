import Clause22.RegisterMap

/-! The registers of the Marvell 88E1111 Gigabit PHY: the copper registers in the base bank and the
fiber registers, page 1 of the device, in the extended bank. Some bits have two names: the status
register gives `speed` also bit by bit, and the control registers call one bit both `reset` and
`soft_reset`. -/

namespace Clause22.Marvell88E1111

def pageAddress : Nat := 22

/-- The `hw_config` value that connects GMII to copper. -/
def hwConfigGmiiCopper : Word := 0b1111

def controlCopper : Register where
  name := "CONTROL_COPPER"
  address := .base 0
  fields := [
    .bit "reset" 15,
    .bit "soft_reset" 15,
    .bit "loopback" 14,
    .bit "speed_sel0" 13,
    .bit "autoneg_en" 12,
    .bit "power_down" 11,
    .bit "isolate" 10,
    .bit "restart_copper_autoneg" 9,
    .bit "copper_duplex_mode" 8,
    .bit "col_test" 7,
    .bit "speed_sel1" 6]

def statusCopper : Register where
  name := "STATUS_COPPER"
  address := .base 1
  fields := [
    .bit "b100base_t4" 15,
    .bit "b100_x_fd" 14,
    .bit "b100_x_hd" 13,
    .bit "b10_fd" 12,
    .bit "b10_hd" 11,
    .bit "b100_t2_fd" 10,
    .bit "b100_t2_hd" 9,
    .bit "extended_status" 8,
    .bit "mf_preamble_suppression" 6,
    .bit "copper_autoneg_done" 5,
    .bit "copper_remote_fault" 4,
    .bit "autoneg_ability" 3,
    .bit "copper_link_status" 2,
    .bit "jabber_detect" 1,
    .bit "extended_capability" 0]

def phySpecificStatusCopper : Register where
  name := "PHY_SPECIFIC_STATUS_COPPER"
  address := .base 17
  fields := [
    ⟨"speed", 14, 2⟩,
    .bit "speed_sel1" 15,
    .bit "speed_sel0" 14,
    .bit "duplex" 13,
    .bit "page_rxed" 12,
    .bit "speed_and_duplex_resolved" 11,
    .bit "link_real_time" 10,
    ⟨"cable_length_gige", 7, 3⟩,
    .bit "mdi_crossover" 6,
    .bit "downshift" 5,
    .bit "copper_energy_detect" 4,
    .bit "tx_pause_en" 3,
    .bit "rx_pause_en" 2,
    .bit "polarity_real_time" 1,
    .bit "jabber_real_time" 0]

def extPhySpecificCtrl : Register where
  name := "EXT_PHY_SPECIFIC_CTRL"
  address := .base 20
  fields := [
    .bit "block_carrier_ext" 15,
    .bit "line_loopback" 14,
    .bit "disable_link_pulses" 12,
    ⟨"downshift_counter", 9, 3⟩,
    .bit "downshift_en" 8,
    .bit "rgmii_rx_timing_ctrl" 7,
    ⟨"default_mac_speed", 4, 3⟩,
    .bit "dte_detect_en" 2,
    .bit "rgmii_tx_timing_ctrl" 1]

def rxErrorCounter : Register where
  name := "RX_ERROR_COUNTER"
  address := .base 21
  fields := [
    ⟨"rx_err_cnt", 0, 16⟩]

def extAddress : Register where
  name := "EXT_ADDRESS"
  address := .base 22
  fields := [
    ⟨"page", 0, 8⟩]

def globalStatus : Register where
  name := "GLOBAL_STATUS"
  address := .base 23
  fields := [
    .bit "port_irq" 0]

def extPhySpecificStatus : Register where
  name := "EXT_PHY_SPECIFIC_STATUS"
  address := .base 27
  fields := [
    .bit "fiber_copper_autosel_dis" 15,
    .bit "fiber_copper_resolution" 13,
    .bit "serial_if_autoneg_bypass_en" 12,
    .bit "serial_if_autoneg_bypass_status" 11,
    .bit "irq_polarity" 10,
    .bit "dis_en_auto_medium_reg_sel" 9,
    ⟨"dte_det_status_drop_hys", 5, 4⟩,
    .bit "dte_pwr_status" 4,
    ⟨"hw_config", 0, 4⟩]

def controlFiber : Register where
  name := "CONTROL_FIBER"
  address := .extended 0
  fields := [
    .bit "reset" 15,
    .bit "soft_reset" 15,
    .bit "loopback" 14,
    .bit "speed_sel0" 13,
    .bit "autoneg_en" 12,
    .bit "power_down" 11,
    .bit "isolate" 10,
    .bit "restart_fiber_autoneg" 9,
    .bit "fiber_duplex_mode" 8,
    .bit "speed_sel1" 6]

def statusFiber : Register where
  name := "STATUS_FIBER"
  address := .extended 1
  fields := [
    .bit "extended_status" 8,
    .bit "mf_preamble_suppression" 6,
    .bit "fiber_autoneg_done" 5,
    .bit "fiber_remote_fault" 4,
    .bit "autoneg_ability" 3,
    .bit "fiber_link_status" 2,
    .bit "extended_capability" 0]

def table : List Register :=
  [controlCopper, statusCopper, phySpecificStatusCopper, extPhySpecificCtrl,
    rxErrorCounter, extAddress, globalStatus, extPhySpecificStatus,
    controlFiber, statusFiber]

/-- The map of this device, in one with room for 16 registers and 128 fields. -/
def registerMap : Except ConfigError RegisterMap :=
  RegisterMap.ofTable 16 128 table

end Clause22.Marvell88E1111
